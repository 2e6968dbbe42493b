import ClassAtlas.Proofs.Lists
import ClassAtlas.Proofs.Scope.Reading

namespace ClassAtlas.Scope

-- A binding with the greatest offset of all, the last of those in the list.
def Latest (bindings : List Binding) (chosen : Binding) : Prop :=
  ∃ before after, bindings = before ++ chosen :: after ∧
    (∀ binding ∈ before, binding.offset ≤ chosen.offset) ∧
    ∀ binding ∈ after, binding.offset < chosen.offset

theorem Latest.offset_le {bindings : List Binding} {chosen : Binding}
    (hlatest : Latest bindings chosen) :
    chosen ∈ bindings ∧ ∀ binding ∈ bindings, binding.offset ≤ chosen.offset := by
  obtain ⟨before, after, rfl, hbefore, hafter⟩ := hlatest
  refine ⟨by simp, fun binding hbinding => ?_⟩
  rcases List.mem_append.mp hbinding with hfront | hback
  · exact hbefore binding hfront
  · rcases List.mem_cons.mp hback with rfl | hback
    · exact Nat.le_refl _
    · exact Nat.le_of_lt (hafter binding hback)

theorem latest_concat_iff {bindings : List Binding} {last chosen : Binding} :
    Latest (bindings ++ [last]) chosen ↔
      (chosen = last ∧ ∀ binding ∈ bindings, binding.offset ≤ last.offset) ∨
        (Latest bindings chosen ∧ last.offset < chosen.offset) := by
  constructor
  · rintro ⟨before, after, hsplit, hbefore, hafter⟩
    rcases List.eq_nil_or_concat after with rfl | ⟨after, other, rfl⟩
    · obtain ⟨rfl, hlast⟩ := List.append_inj' hsplit rfl
      obtain rfl : last = chosen := by simpa using hlast
      exact Or.inl ⟨rfl, hbefore⟩
    · have hsplit' : bindings ++ [last] = (before ++ chosen :: after) ++ [other] := by
        simpa using hsplit
      obtain ⟨rfl, hlast⟩ := List.append_inj' hsplit' rfl
      obtain rfl : last = other := by simpa using hlast
      right
      refine ⟨⟨before, after, rfl, hbefore, fun binding hbinding => ?_⟩, hafter last (by simp)⟩
      exact hafter binding (by simp [hbinding])
  · rintro (⟨rfl, hbefore⟩ | ⟨⟨before, after, rfl, hbefore, hafter⟩, hlast⟩)
    · exact ⟨bindings, [], rfl, hbefore, by simp⟩
    · refine ⟨before, after ++ [last], by simp, hbefore, ?_⟩
      intro binding hbinding
      rcases List.mem_append.mp hbinding with hmem | hmem
      · exact hafter binding hmem
      · obtain rfl := List.mem_singleton.mp hmem
        exact hlast

theorem latest?_concat (bindings : List Binding) (last : Binding) :
    latest? (bindings ++ [last]) = some (((latest? bindings).map (later · last)).getD last) := by
  cases bindings with
  | nil => rfl
  | cons first rest => simp [latest?]

theorem latest?_eq_some_iff {bindings : List Binding} {chosen : Binding} :
    latest? bindings = some chosen ↔ Latest bindings chosen := by
  induction bindings using List.reverseRecOn generalizing chosen with
  | nil => simp [latest?, Latest]
  | append_singleton bindings last ih =>
      rw [latest?_concat, latest_concat_iff, Option.some.injEq]
      cases hbest : latest? bindings with
      | none =>
          obtain rfl : bindings = [] := by
            cases bindings with
            | nil => rfl
            | cons first rest => cases hbest
          have hnone : ¬ Latest [] chosen := by simp [Latest]
          simp [hnone, eq_comm]
      | some best =>
          obtain ⟨hmem, hle⟩ := (ih.mp hbest).offset_le
          have hchosen : Latest bindings chosen ↔ best = chosen := by
            rw [← ih, hbest, Option.some.injEq]
          simp only [Option.map_some, Option.getD_some, hchosen, later]
          by_cases hlast : best.offset ≤ last.offset
          · have hall : ∀ binding ∈ bindings, binding.offset ≤ last.offset :=
              fun binding hbinding => (hle binding hbinding).trans hlast
            rw [if_pos hlast]
            constructor
            · rintro rfl
              exact Or.inl ⟨rfl, hall⟩
            · rintro (⟨rfl, -⟩ | ⟨rfl, hlt⟩)
              · rfl
              · omega
          · rw [if_neg hlast]
            constructor
            · rintro rfl
              exact Or.inr ⟨rfl, by omega⟩
            · rintro (⟨-, hall⟩ | ⟨rfl, -⟩)
              · exact absurd (hall best hmem) hlast
              · rfl

-- The latest of some of the bindings, told by where it stands among all of them.
theorem latest_filter_iff {bindings : List Binding} {keep : Binding → Bool} {chosen : Binding} :
    Latest (bindings.filter keep) chosen ↔
      ∃ before after, bindings = before ++ chosen :: after ∧ keep chosen = true ∧
        (∀ binding ∈ before, keep binding = true → binding.offset ≤ chosen.offset) ∧
        ∀ binding ∈ after, keep binding = true → binding.offset < chosen.offset := by
  constructor
  · rintro ⟨before, after, hsplit, hbefore, hafter⟩
    obtain ⟨front, rest, rfl, rfl, hrest⟩ := List.filter_eq_append_iff.mp hsplit
    obtain ⟨middle, back, rfl, hmiddle, hchosen, rfl⟩ := List.filter_eq_cons_iff.mp hrest
    refine ⟨front ++ middle, back, by simp, hchosen, ?_, ?_⟩
    · intro binding hbinding hkeep
      rcases List.mem_append.mp hbinding with hmem | hmem
      · exact hbefore binding (List.mem_filter.mpr ⟨hmem, hkeep⟩)
      · exact absurd hkeep (hmiddle binding hmem)
    · intro binding hbinding hkeep
      exact hafter binding (List.mem_filter.mpr ⟨hbinding, hkeep⟩)
  · rintro ⟨before, after, rfl, hchosen, hbefore, hafter⟩
    refine ⟨before.filter keep, after.filter keep, ?_, ?_, ?_⟩
    · rw [List.filter_append, List.filter_cons_of_pos hchosen]
    · intro binding hbinding
      obtain ⟨hmem, hkeep⟩ := List.mem_filter.mp hbinding
      exact hbefore binding hmem hkeep
    · intro binding hbinding
      obtain ⟨hmem, hkeep⟩ := List.mem_filter.mp hbinding
      exact hafter binding hmem hkeep

-- Bindings with a smaller offset than the latest one do not count.
theorem latest?_filter_iff {bindings : List Binding} {chosen : Binding} :
    latest? (bindings.filter fun binding => chosen.offset ≤ binding.offset) = some chosen ↔
      latest? bindings = some chosen := by
  rw [latest?_eq_some_iff, latest?_eq_some_iff, latest_filter_iff]
  constructor
  · rintro ⟨before, after, hsplit, -, hbefore, hafter⟩
    refine ⟨before, after, hsplit, fun binding hbinding => ?_, fun binding hbinding => ?_⟩
    · by_cases hearly : chosen.offset ≤ binding.offset
      · exact hbefore binding hbinding (decide_eq_true hearly)
      · omega
    · by_cases hearly : chosen.offset ≤ binding.offset
      · exact hafter binding hbinding (decide_eq_true hearly)
      · omega
  · rintro ⟨before, after, hsplit, hbefore, hafter⟩
    exact ⟨before, after, hsplit, by simp, fun binding hbinding _ => hbefore binding hbinding,
      fun binding hbinding _ => hafter binding hbinding⟩

-- The binding of a name that is nearest to an offset, among those that are not behind it. Of
-- several at one offset it is the last in the list.
def Nearest (bindings : List Binding) (name : String) (offset : Nat) (chosen : Binding) : Prop :=
  ∃ before after, bindings = before ++ chosen :: after ∧
    chosen.name = name ∧ chosen.offset ≤ offset ∧
    (∀ binding ∈ before, binding.name = name → binding.offset ≤ offset →
      binding.offset ≤ chosen.offset) ∧
    ∀ binding ∈ after, binding.name = name → binding.offset ≤ offset →
      binding.offset < chosen.offset

def FirstNamed (bindings : List Binding) (name : String) (chosen : Binding) : Prop :=
  ∃ before after, bindings = before ++ chosen :: after ∧ chosen.name = name ∧
    ∀ binding ∈ before, binding.name ≠ name

def named (bindings : List Binding) (name : String) : List Binding :=
  bindings.filter fun binding => binding.name == name

def preceding (bindings : List Binding) (name : String) (offset : Nat) : List Binding :=
  (named bindings name).filter fun binding => binding.offset ≤ offset

theorem mem_named {bindings : List Binding} {name : String} {binding : Binding} :
    binding ∈ named bindings name ↔ binding ∈ bindings ∧ binding.name = name := by
  simp [named]

theorem mem_preceding {bindings : List Binding} {name : String} {offset : Nat} {binding : Binding} :
    binding ∈ preceding bindings name offset ↔
      binding ∈ bindings ∧ binding.name = name ∧ binding.offset ≤ offset := by
  simp [preceding, mem_named, and_assoc]

theorem preceding_eq_filter (bindings : List Binding) (name : String) (offset : Nat) :
    preceding bindings name offset =
      bindings.filter fun binding => binding.offset ≤ offset && binding.name == name := by
  rw [preceding, named, List.filter_filter]

theorem nearest_iff {bindings : List Binding} {name : String} {offset : Nat} {chosen : Binding} :
    Nearest bindings name offset chosen ↔
      latest? (preceding bindings name offset) = some chosen := by
  have hkeep (binding : Binding) : (binding.offset ≤ offset && binding.name == name) = true ↔
      binding.offset ≤ offset ∧ binding.name = name := by simp
  rw [latest?_eq_some_iff, preceding_eq_filter, latest_filter_iff]
  simp only [hkeep]
  constructor
  · rintro ⟨before, after, hsplit, hname, hoffset, hbefore, hafter⟩
    exact ⟨before, after, hsplit, ⟨hoffset, hname⟩,
      fun binding hbinding h => hbefore binding hbinding h.2 h.1,
      fun binding hbinding h => hafter binding hbinding h.2 h.1⟩
  · rintro ⟨before, after, hsplit, ⟨hoffset, hname⟩, hbefore, hafter⟩
    exact ⟨before, after, hsplit, hname, hoffset,
      fun binding hbinding hsame hle => hbefore binding hbinding ⟨hle, hsame⟩,
      fun binding hbinding hsame hle => hafter binding hbinding ⟨hle, hsame⟩⟩

theorem firstNamed_iff {bindings : List Binding} {name : String} {chosen : Binding} :
    FirstNamed bindings name chosen ↔ (named bindings name).head? = some chosen := by
  rw [named, List.head?_filter, List.find?_eq_some_iff_append]
  constructor
  · rintro ⟨before, after, hsplit, hname, hbefore⟩
    exact ⟨by simp [hname], before, after, hsplit, by simpa using hbefore⟩
  · rintro ⟨hname, before, after, hsplit, hbefore⟩
    exact ⟨before, after, hsplit, by simpa using hname, by simpa using hbefore⟩

theorem typeOf?_eq (scope : Scope) (name : String) (offset : Nat) :
    scope.typeOf? name offset =
      ((latest? (preceding scope.bindings name offset)).or
        (named scope.bindings name).head?).map (·.type) := rfl

variable {scope : Scope} {name : String} {offset : Nat} {chosen : Binding}

theorem typeOf?_of_nearest (hnearest : Nearest scope.bindings name offset chosen) :
    scope.typeOf? name offset = some chosen.type := by
  rw [typeOf?_eq, nearest_iff.mp hnearest]
  rfl

theorem exists_nearest
    (hbefore : ∃ binding ∈ scope.bindings, binding.name = name ∧ binding.offset ≤ offset) :
    ∃ chosen, Nearest scope.bindings name offset chosen := by
  obtain ⟨binding, hbinding, hname, hoffset⟩ := hbefore
  have hmem : binding ∈ preceding scope.bindings name offset :=
    mem_preceding.mpr ⟨hbinding, hname, hoffset⟩
  cases hall : preceding scope.bindings name offset with
  | nil =>
      rw [hall] at hmem
      cases hmem
  | cons first rest => exact ⟨_, nearest_iff.mpr (by rw [hall]; rfl)⟩

theorem typeOf?_of_firstNamed
    (hbehind : ∀ binding ∈ scope.bindings, binding.name = name → offset < binding.offset)
    (hfirst : FirstNamed scope.bindings name chosen) :
    scope.typeOf? name offset = some chosen.type := by
  have hnone : preceding scope.bindings name offset = [] := by
    refine List.eq_nil_iff_forall_not_mem.mpr fun binding hmem => ?_
    obtain ⟨hbinding, hname, hoffset⟩ := mem_preceding.mp hmem
    have hlt := hbehind binding hbinding hname
    omega
  rw [typeOf?_eq, hnone, firstNamed_iff.mp hfirst]
  rfl

theorem exists_firstNamed (hname : ∃ binding ∈ scope.bindings, binding.name = name) :
    ∃ chosen, FirstNamed scope.bindings name chosen := by
  obtain ⟨binding, hbinding, hsame⟩ := hname
  have hmem : binding ∈ named scope.bindings name := mem_named.mpr ⟨hbinding, hsame⟩
  cases hall : named scope.bindings name with
  | nil =>
      rw [hall] at hmem
      cases hmem
  | cons first rest => exact ⟨first, firstNamed_iff.mpr (by rw [hall]; rfl)⟩

theorem typeOf?_eq_none_iff :
    scope.typeOf? name offset = none ↔ ∀ binding ∈ scope.bindings, binding.name ≠ name := by
  constructor
  · intro hnone binding hbinding hsame
    by_cases hbefore : ∃ other ∈ scope.bindings, other.name = name ∧ other.offset ≤ offset
    · obtain ⟨chosen, hnearest⟩ := exists_nearest hbefore
      rw [typeOf?_of_nearest hnearest] at hnone
      cases hnone
    · obtain ⟨chosen, hfirst⟩ := exists_firstNamed ⟨binding, hbinding, hsame⟩
      have hbehind : ∀ other ∈ scope.bindings, other.name = name → offset < other.offset := by
        intro other hother hname
        exact Nat.lt_of_not_le fun hle => hbefore ⟨other, hother, hname, hle⟩
      rw [typeOf?_of_firstNamed hbehind hfirst] at hnone
      cases hnone
  · intro hother
    have hnone : named scope.bindings name = [] := by
      refine List.eq_nil_iff_forall_not_mem.mpr fun binding hmem => ?_
      obtain ⟨hbinding, hsame⟩ := mem_named.mp hmem
      exact hother binding hbinding hsame
    rw [typeOf?_eq, preceding, hnone]
    rfl

-- What has no say in the type of a receiver: bindings of other names, and as soon as one of its own
-- name stands in front of the call, those behind the call and those in front of the nearest one.
def Idle (bindings : List Binding) (receiver : Option String) (offset : Nat) (binding : Binding) :
    Prop :=
  ∀ text ∈ receiver, ∀ name, Asks text name →
    binding.name ≠ name ∨ ∃ chosen, Nearest bindings name offset chosen ∧
      (offset < binding.offset ∨ binding.offset < chosen.offset)

theorem Nearest.of_differIn {sort : Binding → Prop} {bindings others : List Binding}
    (hnearest : Nearest bindings name offset chosen)
    (hdiffer : Lists.DifferIn sort bindings others)
    (hsort : ∀ binding, sort binding → binding.name ≠ name ∨ offset < binding.offset ∨
      binding.offset < chosen.offset) : Nearest others name offset chosen := by
  have hfilter : (preceding bindings name offset).filter (fun b => chosen.offset ≤ b.offset) =
      (preceding others name offset).filter (fun b => chosen.offset ≤ b.offset) := by
    simp only [preceding_eq_filter, List.filter_filter]
    refine hdiffer.filter_eq fun binding hbinding => ?_
    simp only [Bool.and_eq_false_iff, decide_eq_false_iff_not, beq_eq_false_iff_ne]
    rcases hsort binding hbinding with hname | hbehind | hearly
    · exact Or.inr (Or.inr hname)
    · exact Or.inr (Or.inl (Nat.not_le_of_lt hbehind))
    · exact Or.inl (Nat.not_le_of_lt hearly)
  rw [nearest_iff] at hnearest ⊢
  rw [← latest?_filter_iff] at hnearest ⊢
  rwa [← hfilter]

theorem receiverType_of_differIn {receiver : Option String} {others : List Binding}
    (hdiffer : Lists.DifferIn (Idle scope.bindings receiver offset) scope.bindings others) :
    { scope with bindings := others }.receiverType receiver offset =
      scope.receiverType receiver offset := by
  refine receiverType_congr fun text htext name hasks => ?_
  by_cases hnear : ∃ chosen, Nearest scope.bindings name offset chosen
  · obtain ⟨chosen, hchosen⟩ := hnear
    have hothers : Nearest others name offset chosen := by
      refine hchosen.of_differIn hdiffer fun binding hidle => ?_
      rcases hidle text htext name hasks with hname | ⟨other, hother, hfar⟩
      · exact Or.inl hname
      · have hsame : other = chosen := by
          rw [nearest_iff] at hchosen hother
          exact Option.some.inj (hother.symm.trans hchosen)
        exact Or.inr (hsame ▸ hfar)
    rw [typeOf?_of_nearest hchosen]
    exact typeOf?_of_nearest hothers
  · have hnames : named others name = named scope.bindings name := by
      refine (hdiffer.filter_eq fun binding hidle => ?_).symm
      rcases hidle text htext name hasks with hname | ⟨other, hother, -⟩
      · simpa using hname
      · exact absurd ⟨other, hother⟩ hnear
    rw [typeOf?_eq, typeOf?_eq, preceding, preceding, hnames]

-- The type of a name is that of its nearest binding in front of the call, or of its first one when
-- all of them are behind it. Nothing else has a say, whatever is added or left out.
theorem nearest_binding_gives_type (scope : Scope) (name : String) (offset : Nat) :
    (scope.typeOf? name offset = none ↔ ∀ binding ∈ scope.bindings, binding.name ≠ name) ∧
    ((∃ binding ∈ scope.bindings, binding.name = name ∧ binding.offset ≤ offset) →
      ∃ chosen, (∀ other, Nearest scope.bindings name offset other ↔ other = chosen) ∧
        scope.typeOf? name offset = some chosen.type) ∧
    ((∃ binding ∈ scope.bindings, binding.name = name) →
      (∀ binding ∈ scope.bindings, binding.name = name → offset < binding.offset) →
      ∃ chosen, (∀ other, FirstNamed scope.bindings name other ↔ other = chosen) ∧
        scope.typeOf? name offset = some chosen.type) ∧
    ∀ (receiver : Option String) (others : List Binding),
      Lists.DifferIn (Idle scope.bindings receiver offset) scope.bindings others →
      { scope with bindings := others }.receiverType receiver offset =
        scope.receiverType receiver offset := by
  refine ⟨typeOf?_eq_none_iff, ?_, ?_, fun _ _ => receiverType_of_differIn⟩
  · intro hbefore
    obtain ⟨chosen, hchosen⟩ := exists_nearest hbefore
    refine ⟨chosen, fun other => ?_, typeOf?_of_nearest hchosen⟩
    rw [nearest_iff, nearest_iff.mp hchosen, Option.some.injEq, eq_comm]
  · intro hname hbehind
    obtain ⟨chosen, hchosen⟩ := exists_firstNamed hname
    refine ⟨chosen, fun other => ?_, typeOf?_of_firstNamed hbehind hchosen⟩
    rw [firstNamed_iff, firstNamed_iff.mp hchosen, Option.some.injEq, eq_comm]

-- Of the bindings of `x` at 10 the second one is nearest to a call at 20. Another name, a later
-- binding and an earlier one make no difference.
theorem tiedNames_nearest_type :
    let early : Binding := ⟨"x", "E", 5⟩
    let first : Binding := ⟨"x", "A", 10⟩
    let second : Binding := ⟨"x", "C", 10⟩
    let scope : Scope :=
      ⟨.typescript, "K", none, [first, ⟨"y", "B", 12⟩, second, ⟨"x", "D", 40⟩]⟩
    scope.typeOf? "x" 20 = some "C" ∧ scope.typeOf? "x" 7 = some "A" ∧
      scope.typeOf? "z" 20 = none ∧
      { scope with bindings := [early, first, second] }.receiverType (some "this.x") 20 =
        scope.receiverType (some "this.x") 20 := by
  intro early first second scope
  have hnearest : Nearest scope.bindings "x" 20 second := nearest_iff.mpr (by decide)
  have hfirst : FirstNamed scope.bindings "x" first := firstNamed_iff.mpr (by decide)
  have hword : Text.isWord "x".toList = true := by decide
  have hasks : Asks "this.x" "x" := (asks_this_member hword).1
  have hidle (binding : Binding)
      (hfar : binding.name ≠ "x" ∨ 20 < binding.offset ∨ binding.offset < 10) :
      Idle scope.bindings (some "this.x") 20 binding := by
    intro text htext name hname
    obtain rfl := Option.some.inj htext
    obtain rfl := hname.unique hasks
    exact hfar.imp_right fun hfar => ⟨second, hnearest, hfar⟩
  obtain ⟨-, hbefore, -, hidles⟩ := nearest_binding_gives_type scope "x" 20
  obtain ⟨chosen, hchosen, htype⟩ := hbefore (by decide)
  obtain ⟨-, -, hbehind, -⟩ := nearest_binding_gives_type scope "x" 7
  obtain ⟨head, hhead, hheadType⟩ := hbehind (by decide) (by decide)
  rw [← (hchosen second).mp hnearest] at htype
  rw [← (hhead first).mp hfirst] at hheadType
  refine ⟨htype, hheadType, (nearest_binding_gives_type scope "z" 20).1.mpr (by decide), ?_⟩
  refine hidles (some "this.x") [early, first, second] ?_
  exact .right (hidle _ (by decide)) (.both _ (.left (hidle _ (by decide)) (.both _
    (.left (hidle _ (by decide)) .nil))))

end ClassAtlas.Scope
