import Mathlib.Data.List.Nodup
import ClassAtlas.Pattern.Fit
import ClassAtlas.Proofs.Tree.WellFormed

namespace ClassAtlas

-- A named node of a kind.
def Node.IsKind (node : Node) (kind : String) : Prop :=
  node.named = true ∧ node.kind = kind

namespace Pattern

variable {first : Node → List (List Capture)} {others : List Node → List (List Capture)}

theorem mem_choose {captures : List Capture} {siblings : List Node} :
    captures ∈ choose first others siblings ↔
      ∃ found behind own rest, found :: behind <:+ siblings ∧ own ∈ first found ∧
        rest ∈ others behind ∧ captures = own ++ rest := by
  induction siblings with
  | nil => simp [choose]
  | cons node siblings ih =>
      simp only [choose, List.mem_append, List.mem_flatMap, List.mem_map, ih,
        List.suffix_cons_iff]
      constructor
      · rintro (⟨own, hown, rest, hrest, rfl⟩ | ⟨found, behind, own, rest, hsuffix, hfits⟩)
        · exact ⟨node, siblings, own, rest, Or.inl rfl, hown, hrest, rfl⟩
        · exact ⟨found, behind, own, rest, Or.inr hsuffix, hfits⟩
      · rintro ⟨found, behind, own, rest, heq | hsuffix, hown, hrest, hcaptures⟩
        · obtain ⟨rfl, rfl⟩ := List.cons.inj heq
          exact Or.inl ⟨own, hown, rest, hrest, hcaptures.symm⟩
        · exact Or.inr ⟨found, behind, own, rest, hsuffix, hown, hrest, hcaptures⟩

theorem choose_eq_nil {siblings : List Node} (h : ∀ node ∈ siblings, first node = []) :
    choose first others siblings = [] := by
  induction siblings with
  | nil => rfl
  | cons node siblings ih =>
      have hrest := ih fun other hother => h other (List.mem_cons_of_mem _ hother)
      rw [choose, h node (List.mem_cons_self ..), hrest]
      rfl

-- There is one way at most when no two siblings can both be chosen.
theorem choose_length_le_one {siblings : List Node}
    (halone : siblings.Pairwise (fun a b => first a = [] ∨ first b = []))
    (hfirst : ∀ node ∈ siblings, (first node).length ≤ 1)
    (hothers : ∀ behind, behind <:+ siblings → (others behind).length ≤ 1) :
    (choose first others siblings).length ≤ 1 := by
  induction siblings with
  | nil => exact Nat.zero_le 1
  | cons node siblings ih =>
      obtain ⟨hnode, hsiblings⟩ := List.pairwise_cons.mp halone
      cases hown : first node with
      | nil =>
          rw [choose, hown]
          exact ih hsiblings (fun other hother => hfirst other (List.mem_cons_of_mem _ hother))
            (fun behind hbehind => hothers behind (hbehind.trans (List.suffix_cons _ _)))
      | cons own more =>
          have hmore : more = [] := by
            have hlength := hfirst node (List.mem_cons_self ..)
            rw [hown, List.length_cons] at hlength
            exact List.length_eq_zero_iff.mp (by omega)
          have hnone : choose first others siblings = [] := by
            refine choose_eq_nil fun other hother => ?_
            obtain h | h := hnode other hother
            · simp [hown] at h
            · exact h
          have hrest := hothers siblings (List.suffix_cons _ _)
          simp [choose, hown, hmore, hnone, hrest]

theorem mem_fits_kind {kind : String} {patterns : List Pattern} {found : Node}
    {captures : List Capture} :
    captures ∈ fits (node (.kind kind) patterns) found ↔
      found.IsKind kind ∧ captures ∈ fitsAmong patterns found.children := by
  simp [fits, NodeTest.accepts, Node.IsKind]

theorem mem_fits_ofKind {kind : String} {found : Node} {captures : List Capture} :
    captures ∈ fits (ofKind kind) found ↔ found.IsKind kind ∧ captures = [] := by
  rw [ofKind, mem_fits_kind, fitsAmong, List.mem_singleton]

theorem mem_fits_field {name : String} {pattern : Pattern} {found : Node}
    {captures : List Capture} :
    captures ∈ fits (field name pattern) found ↔
      found.field = some name ∧ captures ∈ fits pattern found := by
  simp [fits]

theorem mem_fits_capture {name : String} {pattern : Pattern} {found : Node}
    {captures : List Capture} :
    captures ∈ fits (capture name pattern) found ↔
      ∃ inner ∈ fits pattern found, captures = (name, found) :: inner := by
  simp [fits, eq_comm]

theorem mem_fitsAny {branches : List Pattern} {found : Node} {captures : List Capture} :
    captures ∈ fitsAny branches found ↔ ∃ branch ∈ branches, captures ∈ fits branch found := by
  induction branches with
  | nil => simp [fitsAny]
  | cons branch rest ih => simp [fitsAny, ih]

@[simp] theorem isOptional_field (name : String) (pattern : Pattern) :
    (field name pattern).isOptional = false := rfl

theorem fitsAmong_cons {pattern : Pattern} (patterns : List Pattern) (siblings : List Node)
    (hpattern : pattern.isOptional = false) :
    fitsAmong (pattern :: patterns) siblings =
      choose (fun found => fits pattern found) (fun behind => fitsAmong patterns behind)
        siblings := by
  rw [fitsAmong]
  simp only [hpattern, Bool.false_and, Bool.false_eq_true, if_false]

-- An optional child is looked for as if it were not optional, and left out if that fails.
theorem fitsAmong_optional {pattern : Pattern} (patterns : List Pattern) (siblings : List Node)
    (hpattern : pattern.isOptional = false) :
    fitsAmong (optional pattern :: patterns) siblings =
      if fitsAmong (pattern :: patterns) siblings = [] then fitsAmong patterns siblings
      else fitsAmong (pattern :: patterns) siblings := by
  have hfits : (fun found => fits (optional pattern) found) = fun found => fits pattern found := by
    funext found
    rw [fits]
  rw [fitsAmong_cons patterns siblings hpattern, fitsAmong]
  simp only [hfits, isOptional, Bool.true_and, List.isEmpty_iff]

theorem mem_fitsAmong_cons {pattern : Pattern} {patterns : List Pattern} {siblings : List Node}
    {captures : List Capture} (hpattern : pattern.isOptional = false) :
    captures ∈ fitsAmong (pattern :: patterns) siblings ↔
      ∃ found behind own rest, found :: behind <:+ siblings ∧ own ∈ fits pattern found ∧
        rest ∈ fitsAmong patterns behind ∧ captures = own ++ rest := by
  rw [fitsAmong_cons patterns siblings hpattern, mem_choose]

theorem fitsAmong_single {pattern : Pattern} (siblings : List Node)
    (hpattern : pattern.isOptional = false) :
    fitsAmong [pattern] siblings = siblings.flatMap fun found => fits pattern found := by
  rw [fitsAmong_cons [] siblings hpattern]
  induction siblings with
  | nil => rfl
  | cons node siblings ih =>
      rw [choose, ih, List.flatMap_cons]
      simp [fitsAmong]

theorem mem_fitsAmong_single {pattern : Pattern} {siblings : List Node}
    {captures : List Capture} (hpattern : pattern.isOptional = false) :
    captures ∈ fitsAmong [pattern] siblings ↔
      ∃ found ∈ siblings, captures ∈ fits pattern found := by
  rw [fitsAmong_single siblings hpattern, List.mem_flatMap]

theorem mem_fitsAmong_pair {pattern next : Pattern} {siblings : List Node}
    {captures : List Capture} (hpattern : pattern.isOptional = false)
    (hnext : next.isOptional = false) :
    captures ∈ fitsAmong [pattern, next] siblings ↔
      ∃ found behind own rest, [found, behind].Sublist siblings ∧ own ∈ fits pattern found ∧
        rest ∈ fits next behind ∧ captures = own ++ rest := by
  rw [mem_fitsAmong_cons hpattern]
  simp only [mem_fitsAmong_single hnext]
  constructor
  · rintro ⟨found, after, own, rest, hsuffix, hown, ⟨behind, hbehind, hrest⟩, rfl⟩
    have hpair : [found, behind].Sublist (found :: after) :=
      (List.singleton_sublist.mpr hbehind).cons_cons found
    exact ⟨found, behind, own, rest, hpair.trans hsuffix.sublist, hown, hrest, rfl⟩
  · rintro ⟨found, behind, own, rest, hpair, hown, hrest, rfl⟩
    obtain ⟨front, back, rfl, hfound, hbehind⟩ := List.cons_sublist_iff.mp hpair
    obtain ⟨before, between, rfl⟩ := List.append_of_mem hfound
    refine ⟨found, between ++ back, own, rest, ?_, hown, ⟨behind, ?_, hrest⟩, rfl⟩
    · exact ⟨before, by simp⟩
    · exact List.mem_append_right _ (List.singleton_sublist.mp hbehind)

mutual

-- What a pattern captures stands below the node that it fits.
theorem fits_below :
    ∀ (pattern : Pattern) (found : Node) (captures : List Capture),
      captures ∈ fits pattern found → ∀ item ∈ captures, item.2 ∈ found.preorder
  | node test patterns, found, captures, hfits, item, hitem => by
      rw [fits] at hfits
      split at hfits
      · obtain ⟨child, hchild, hbelow⟩ :=
          fitsAmong_below patterns found.children captures hfits item hitem
        exact Node.mem_preorder_of_child hchild hbelow
      · exact absurd hfits List.not_mem_nil
  | oneOf branches, found, captures, hfits, item, hitem => by
      rw [fits] at hfits
      exact fitsAny_below branches found captures hfits item hitem
  | field name pattern, found, captures, hfits, item, hitem =>
      fits_below pattern found captures (mem_fits_field.mp hfits).2 item hitem
  | capture name pattern, found, captures, hfits, item, hitem => by
      obtain ⟨inner, hinner, rfl⟩ := mem_fits_capture.mp hfits
      obtain rfl | hitem := List.mem_cons.mp hitem
      · exact Node.mem_preorder.mpr ⟨[], rfl⟩
      · exact fits_below pattern found inner hinner item hitem
  | optional pattern, found, captures, hfits, item, hitem => by
      rw [fits] at hfits
      exact fits_below pattern found captures hfits item hitem

theorem fitsAny_below :
    ∀ (branches : List Pattern) (found : Node) (captures : List Capture),
      captures ∈ fitsAny branches found → ∀ item ∈ captures, item.2 ∈ found.preorder
  | [], _, _, hfits, _, _ => by
      rw [fitsAny] at hfits
      exact absurd hfits List.not_mem_nil
  | branch :: rest, found, captures, hfits, item, hitem => by
      rw [fitsAny] at hfits
      obtain hfits | hfits := List.mem_append.mp hfits
      · exact fits_below branch found captures hfits item hitem
      · exact fitsAny_below rest found captures hfits item hitem

theorem fitsAmong_below :
    ∀ (patterns : List Pattern) (siblings : List Node) (captures : List Capture),
      captures ∈ fitsAmong patterns siblings → ∀ item ∈ captures,
        ∃ sibling ∈ siblings, item.2 ∈ sibling.preorder
  | [], _, captures, hfits, item, hitem => by
      obtain rfl : captures = [] := by simpa [fitsAmong] using hfits
      exact absurd hitem List.not_mem_nil
  | pattern :: rest, siblings, captures, hfits, item, hitem => by
      rw [fitsAmong] at hfits
      split at hfits
      · exact fitsAmong_below rest siblings captures hfits item hitem
      · obtain ⟨found, behind, own, others, hsuffix, hown, hothers, rfl⟩ := mem_choose.mp hfits
        obtain hitem | hitem := List.mem_append.mp hitem
        · exact ⟨found, hsuffix.subset (List.mem_cons_self ..),
            fits_below pattern found own hown item hitem⟩
        · obtain ⟨sibling, hsibling, hbelow⟩ :=
            fitsAmong_below rest behind others hothers item hitem
          exact ⟨sibling, hsuffix.subset (List.mem_cons_of_mem _ hsibling), hbelow⟩

end

-- The kind of node that a pattern names.
def headKind? : Pattern → Option String
  | node (.kind name) _ => some name
  | _ => none

def asksField : Pattern → Bool
  | field _ _ => true
  | optional (field _ _) => true
  | _ => false

mutual

-- A pattern that asks for all children by their fields, and that names different kinds of
-- nodes where it leaves a choice.
def anchored : Pattern → Bool
  | node _ patterns => anchoredAll patterns && patterns.all asksField
  | oneOf branches =>
      anchoredAll branches && branches.all (fun branch => branch.headKind?.isSome) &&
        decide (branches.filterMap headKind?).Nodup
  | field _ pattern => anchored pattern
  | capture _ pattern => anchored pattern
  | optional pattern => anchored pattern

def anchoredAll : List Pattern → Bool
  | [] => true
  | pattern :: rest => anchored pattern && anchoredAll rest

end

theorem kind_of_fits {pattern : Pattern} {kind : String} {found : Node}
    (hkind : pattern.headKind? = some kind) (hfits : fits pattern found ≠ []) :
    found.kind = kind := by
  cases pattern with
  | node test patterns =>
      cases test <;> simp only [headKind?, Option.some.injEq, reduceCtorEq] at hkind
      subst hkind
      by_contra hne
      exact hfits (by simp [fits, NodeTest.accepts, hne])
  | _ => simp [headKind?] at hkind

theorem fits_eq_nil_of_asksField {pattern : Pattern} (hpattern : pattern.asksField = true)
    {a b : Node} (hfields : ∀ name, a.field = some name → b.field ≠ some name) :
    fits pattern a = [] ∨ fits pattern b = [] := by
  have hfield (name : String) (inner : Pattern) :
      fits (field name inner) a = [] ∨ fits (field name inner) b = [] := by
    by_cases ha : a.field = some name
    · exact Or.inr (by simp [fits, hfields name ha])
    · exact Or.inl (by simp [fits, ha])
  cases pattern with
  | field name inner => exact hfield name inner
  | optional inner =>
      cases inner <;> simp only [asksField, Bool.false_eq_true] at hpattern
      simpa only [fits] using hfield _ _
  | _ => simp [asksField] at hpattern

mutual

-- An anchored pattern fits a node in one way at most.
theorem fits_length_le_one :
    ∀ (pattern : Pattern), pattern.anchored = true → ∀ found : Node, found.DistinctFields →
      (fits pattern found).length ≤ 1
  | node test patterns, hpattern, found, hfound => by
      simp only [anchored, Bool.and_eq_true] at hpattern
      rw [fits]
      split
      · exact fitsAmong_length_le_one patterns hpattern.1 hpattern.2 found.children
          hfound.pairwise fun child hchild => hfound.child hchild
      · exact Nat.zero_le 1
  | oneOf branches, hpattern, found, hfound => by
      simp only [anchored, Bool.and_eq_true, decide_eq_true_eq] at hpattern
      rw [fits]
      exact fitsAny_length_le_one branches hpattern.1.1 hpattern.1.2 hpattern.2 found hfound
  | field name pattern, hpattern, found, hfound => by
      rw [fits]
      split
      · exact fits_length_le_one pattern hpattern found hfound
      · exact Nat.zero_le 1
  | capture name pattern, hpattern, found, hfound => by
      rw [fits, List.length_map]
      exact fits_length_le_one pattern hpattern found hfound
  | optional pattern, hpattern, found, hfound => by
      rw [fits]
      exact fits_length_le_one pattern hpattern found hfound

theorem fitsAny_length_le_one :
    ∀ (branches : List Pattern), anchoredAll branches = true →
      branches.all (fun branch => branch.headKind?.isSome) = true →
      (branches.filterMap headKind?).Nodup → ∀ found : Node, found.DistinctFields →
      (fitsAny branches found).length ≤ 1
  | [], _, _, _, _, _ => Nat.zero_le 1
  | branch :: rest, hbranches, hkinds, hnodup, found, hfound => by
      simp only [anchoredAll, Bool.and_eq_true] at hbranches
      simp only [List.all_cons, Bool.and_eq_true] at hkinds
      obtain ⟨kind, hkind⟩ := Option.isSome_iff_exists.mp hkinds.1
      rw [List.filterMap_cons, hkind] at hnodup
      obtain ⟨hother, hnodup⟩ := List.nodup_cons.mp hnodup
      have hone := fits_length_le_one branch hbranches.1 found hfound
      have hrest := fitsAny_length_le_one rest hbranches.2 hkinds.2 hnodup found hfound
      by_cases hfits : fits branch found = []
      · simpa only [fitsAny, hfits, List.nil_append] using hrest
      · -- the node has the kind of the first branch, and no other branch names that kind
        have hnone : fitsAny rest found = [] := by
          refine List.eq_nil_iff_forall_not_mem.mpr fun captures hcaptures => ?_
          obtain ⟨other, hmem, hother'⟩ := mem_fitsAny.mp hcaptures
          obtain ⟨kind', hkind'⟩ :=
            Option.isSome_iff_exists.mp (List.all_eq_true.mp hkinds.2 _ hmem)
          have hsame := kind_of_fits hkind' (List.ne_nil_of_mem hother')
          rw [kind_of_fits hkind hfits] at hsame
          exact hother (hsame ▸ List.mem_filterMap.mpr ⟨other, hmem, hkind'⟩)
        simpa only [fitsAny, hnone, List.append_nil] using hone

theorem fitsAmong_length_le_one :
    ∀ (patterns : List Pattern), anchoredAll patterns = true → patterns.all asksField = true →
      ∀ siblings : List Node,
      siblings.Pairwise (fun a b => ∀ name, a.field = some name → b.field ≠ some name) →
      (∀ sibling ∈ siblings, sibling.DistinctFields) → (fitsAmong patterns siblings).length ≤ 1
  | [], _, _, _, _, _ => Nat.le_refl 1
  | pattern :: rest, hpatterns, hasks, siblings, hsiblings, hbelow => by
      simp only [anchoredAll, Bool.and_eq_true] at hpatterns
      simp only [List.all_cons, Bool.and_eq_true] at hasks
      have hrest (behind : List Node) (hbehind : behind <:+ siblings) :
          (fitsAmong rest behind).length ≤ 1 :=
        fitsAmong_length_le_one rest hpatterns.2 hasks.2 behind
          (hsiblings.sublist hbehind.sublist)
          fun sibling hsibling => hbelow sibling (hbehind.subset hsibling)
      rw [fitsAmong]
      split
      · exact hrest siblings (List.suffix_refl _)
      · refine choose_length_le_one ?_ ?_ hrest
        · exact hsiblings.imp fun hfields => fits_eq_nil_of_asksField hasks.1 hfields
        · intro sibling hsibling
          exact fits_length_le_one pattern hpatterns.1 sibling (hbelow sibling hsibling)

end

end Pattern

end ClassAtlas
