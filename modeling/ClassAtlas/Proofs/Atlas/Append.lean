import ClassAtlas.Proofs.Atlas.Link
import ClassAtlas.Proofs.Atlas.Parents

namespace ClassAtlas

-- Where a class or a method stands when its files come behind a number of others.
def ClassPlace.behind (count : Nat) (place : ClassPlace) : ClassPlace :=
  ⟨count + place.file, place.index⟩

def MethodPlace.behind (count : Nat) (place : MethodPlace) : MethodPlace :=
  ⟨count + place.file, place.index, place.method⟩

theorem MethodPlace.lt_or_behind (count : Nat) (place : MethodPlace) :
    place.file < count ∨ ∃ later : MethodPlace, place = later.behind count := by
  by_cases h : place.file < count
  · exact Or.inl h
  · have hfile : count + (place.file - count) = place.file := by omega
    refine Or.inr ⟨⟨place.file - count, place.index, place.method⟩, ?_⟩
    rw [behind, hfile]

-- Coming behind others keeps the order.
theorem MethodPlace.behind_order (count : Nat) (a b : MethodPlace) :
    a.behind count = b.behind count ∨ (a.behind count).Before (b.behind count) ↔
      a = b ∨ a.Before b := by
  obtain ⟨file, index, method⟩ := a
  obtain ⟨file', index', method'⟩ := b
  simp only [behind, Before, owner, ClassPlace.Before, MethodPlace.mk.injEq, ClassPlace.mk.injEq]
  omega

namespace Atlas

variable (first second : Atlas)

theorem classes_append :
    (first.append second.files).classes = first.classes ++ second.classes :=
  List.flatMap_append

theorem usages_append : (first.append second.files).usages = first.usages ++ second.usages := by
  rw [usages, classes_append, List.flatMap_append]
  rfl

theorem class?_append_left {place : ClassPlace} (hplace : place.file < first.files.length) :
    (first.append second.files).class? place = first.class? place := by
  rw [class?, append, List.getElem?_append_left hplace, class?]

theorem class?_append_behind (place : ClassPlace) :
    (first.append second.files).class? (place.behind first.files.length) = second.class? place := by
  have hle : first.files.length ≤ first.files.length + place.file := by omega
  rw [class?, append, ClassPlace.behind, List.getElem?_append_right hle, Nat.add_sub_cancel_left,
    class?]

theorem file_lt_of_class? {atlas : Atlas} {place : ClassPlace} {entry : ClassEntry}
    (hentry : atlas.class? place = some entry) : place.file < atlas.files.length := by
  obtain ⟨file, hfile, -⟩ := Option.bind_eq_some_iff.mp hentry
  exact (List.getElem?_eq_some_iff.mp hfile).1

theorem method?_append_left {place : MethodPlace} (hplace : place.file < first.files.length) :
    (first.append second.files).method? place = first.method? place := by
  rw [method?, class?_append_left _ _ hplace, method?]

theorem method?_append_behind (place : MethodPlace) :
    (first.append second.files).method? (place.behind first.files.length) =
      second.method? place := by
  change ((first.append second.files).class? (place.owner.behind first.files.length)).bind _ = _
  rw [class?_append_behind]
  rfl

theorem declares_append_left {place : MethodPlace} (hplace : place.file < first.files.length)
    (key : String) :
    (first.append second.files).Declares place key ↔ first.Declares place key := by
  have howner : place.owner.file < first.files.length := hplace
  rw [Declares, class?_append_left _ _ howner, Declares]

theorem declares_append_behind (place : MethodPlace) (key : String) :
    (first.append second.files).Declares (place.behind first.files.length) key ↔
      second.Declares place key := by
  have howner : (place.behind first.files.length).owner =
      place.owner.behind first.files.length := rfl
  rw [Declares, howner, class?_append_behind, Declares]
  rfl

theorem file_lt_of_declares {atlas : Atlas} {place : MethodPlace} {key : String}
    (hdecl : atlas.Declares place key) : place.file < atlas.files.length := by
  obtain ⟨entry, -, hentry, -⟩ := hdecl
  exact file_lt_of_class? hentry

theorem linkable_append {usage : Usage} (h : first.Linkable usage ∨ second.Linkable usage) :
    (first.append second.files).Linkable usage := by
  obtain ⟨hcaller, hmethod, place, hdecl⟩ | ⟨hcaller, hmethod, place, hdecl⟩ := h
  · refine ⟨hcaller, hmethod, place, ?_⟩
    exact (first.declares_append_left second (file_lt_of_declares hdecl) _).mpr hdecl
  · exact ⟨hcaller, hmethod, _, (first.declares_append_behind second place _).mpr hdecl⟩

-- Whatever can be linked in one of the two parts can be linked in both together.
theorem linkCalls_append_le :
    first.linkCalls.2 + second.linkCalls.2 ≤ (first.append second.files).linkCalls.2 := by
  change first.links.length + second.links.length ≤ (first.append second.files).links.length
  simp only [links_length, usages_append, ← List.countP_eq_length_filter, List.countP_append]
  apply Nat.add_le_add
  · refine List.countP_mono_left fun usage _ h => ?_
    rw [decide_eq_true_iff] at h ⊢
    exact first.linkable_append second (Or.inl h)
  · refine List.countP_mono_left fun usage _ h => ?_
    rw [decide_eq_true_iff] at h ⊢
    exact first.linkable_append second (Or.inr h)

theorem linkParents_append_le :
    first.linkParents.2 + second.linkParents.2 ≤ (first.append second.files).linkParents.2 := by
  simp only [linkParents_snd_eq_countP, classes_append, List.flatMap_append, List.map_append,
    List.countP_append]
  apply Nat.add_le_add
  · refine List.countP_mono_left fun parent _ h => ?_
    rw [decide_eq_true_iff] at h ⊢
    exact List.mem_append_left _ h
  · refine List.countP_mono_left fun parent _ h => ?_
    rw [decide_eq_true_iff] at h ⊢
    exact List.mem_append_right _ h

-- A place has one name.
theorem Declares.unique {atlas : Atlas} {place : MethodPlace} {key key' : String}
    (h : atlas.Declares place key) (h' : atlas.Declares place key') : key = key' := by
  obtain ⟨entry, method, hentry, hmethod, rfl⟩ := h
  obtain ⟨entry', method', hentry', hmethod', rfl⟩ := h'
  obtain rfl := Option.some.inj (hentry.symm.trans hentry')
  obtain rfl := Option.some.inj (hmethod.symm.trans hmethod')
  rfl

-- The files behind decide about every name that they declare.
theorem declaresLast_append_behind (place : MethodPlace) (key : String) :
    (first.append second.files).DeclaresLast (place.behind first.files.length) key ↔
      second.DeclaresLast place key := by
  rw [DeclaresLast, declares_append_behind, DeclaresLast]
  refine and_congr_right fun hdecl => ⟨?_, ?_⟩
  · intro hlast other hother
    rw [← MethodPlace.behind_order first.files.length]
    exact hlast _ ((first.declares_append_behind second other key).mpr hother)
  · intro hlast other hother
    obtain hlt | ⟨later, rfl⟩ := other.lt_or_behind first.files.length
    · refine Or.inr (Or.inl (Or.inl ?_))
      change other.file < first.files.length + place.file
      omega
    · rw [MethodPlace.behind_order]
      exact hlast _ ((first.declares_append_behind second later key).mp hother)

-- A name that the files behind do not declare keeps its place.
theorem declaresLast_append_left {key : String} (hnew : ∀ other, ¬ second.Declares other key)
    (place : MethodPlace) :
    (first.append second.files).DeclaresLast place key ↔ first.DeclaresLast place key := by
  have hdecl (other : MethodPlace) :
      (first.append second.files).Declares other key ↔ first.Declares other key := by
    obtain hlt | ⟨later, rfl⟩ := other.lt_or_behind first.files.length
    · exact first.declares_append_left second hlt key
    · rw [declares_append_behind]
      refine iff_of_false (hnew later) fun hfirst => ?_
      have hlt : first.files.length + later.file < first.files.length :=
        file_lt_of_declares hfirst
      omega
  simp only [DeclaresLast, hdecl]

theorem callersAt_append_behind (place : MethodPlace) :
    (first.append second.files).callersAt (place.behind first.files.length) =
      first.usages.filter (second.Reaches · place) ++ second.callersAt place := by
  have hreach (usage : Usage) :
      (first.append second.files).Reaches usage (place.behind first.files.length) ↔
        second.Reaches usage place := by
    rw [Reaches, declaresLast_append_behind, Reaches]
  simp only [callersAt, usages_append, List.filter_append, hreach]

theorem callersAt_append_left {place : MethodPlace} {key : String}
    (hdecl : first.Declares place key) (hnew : ∀ other, ¬ second.Declares other key) :
    (first.append second.files).callersAt place =
      first.callersAt place ++ second.usages.filter (first.Reaches · place) := by
  have hreach (usage : Usage) :
      (first.append second.files).Reaches usage place ↔ first.Reaches usage place := by
    by_cases hkey : methodName usage.receiver usage.method = key
    · rw [Reaches, hkey, first.declaresLast_append_left second hnew, Reaches, hkey]
    · -- neither of the two atlases has the method of another name at the place
      refine iff_of_false ?_ fun h => hkey (h.2.2.1.unique hdecl)
      rintro ⟨-, -, hother, -⟩
      have hlt := file_lt_of_declares hdecl
      exact hkey (((first.declares_append_left second hlt _).mp hother).unique hdecl)
  simp only [callersAt, usages_append, List.filter_append, hreach]

theorem method?_linkCalls (atlas : Atlas) (place : MethodPlace) :
    atlas.linkCalls.1.method? place =
      (atlas.method? place).map (.addCallers (atlas.callersAt place)) := by
  rw [linkCalls_fst, method?_mapMethods]

-- Files that are put together lose no links. At least as much is linked as in the two parts
-- alone. A method of the first part that the second part does not declare again gets the
-- callers that it gets in the first part alone, and behind them calls from the second part. A
-- method of the second part gets calls from the first part, and behind them the callers that
-- it gets in the second part alone.
theorem append_keeps_links (first second : Atlas) :
    let both := first.append second.files
    first.linkCalls.2 + second.linkCalls.2 ≤ both.linkCalls.2 ∧
      first.linkParents.2 + second.linkParents.2 ≤ both.linkParents.2 ∧
      (∀ place key, first.Declares place key → (∀ other, ¬ second.Declares other key) →
        ∃ method, first.method? place = some method ∧ both.method? place = some method ∧
          first.linkCalls.1.method? place =
            some (method.addCallers (first.callersAt place)) ∧
          both.linkCalls.1.method? place =
            some (method.addCallers
              (first.callersAt place ++ second.usages.filter (first.Reaches · place)))) ∧
      ∀ place method, second.method? place = some method →
        both.method? (place.behind first.files.length) = some method ∧
          second.linkCalls.1.method? place =
            some (method.addCallers (second.callersAt place)) ∧
          both.linkCalls.1.method? (place.behind first.files.length) =
            some (method.addCallers
              (first.usages.filter (second.Reaches · place) ++ second.callersAt place)) := by
  intro both
  refine ⟨first.linkCalls_append_le second, first.linkParents_append_le second, ?_, ?_⟩
  · intro place key hdecl hnew
    obtain ⟨method, hfirst⟩ := hdecl.exists_method
    have hboth : both.method? place = some method := by
      rw [first.method?_append_left second (file_lt_of_declares hdecl), hfirst]
    refine ⟨method, hfirst, hboth, ?_, ?_⟩
    · rw [method?_linkCalls, hfirst, Option.map_some]
    · rw [method?_linkCalls, hboth, first.callersAt_append_left second hdecl hnew, Option.map_some]
  · intro place method hsecond
    have hboth : both.method? (place.behind first.files.length) = some method := by
      rw [first.method?_append_behind second, hsecond]
    refine ⟨hboth, ?_, ?_⟩
    · rw [method?_linkCalls, hsecond, Option.map_some]
    · rw [method?_linkCalls, hboth, first.callersAt_append_behind second, Option.map_some]

-- One class with one method and one call.
def oneMethod (owner method : String) (usage : Usage) : Atlas :=
  ⟨[⟨"a.ts", [⟨owner, [], none, [⟨method, none⟩], [usage]⟩]⟩]⟩

theorem declares_oneMethod {owner method : String} {usage : Usage} {place : MethodPlace}
    {key : String} :
    (oneMethod owner method usage).Declares place key ↔
      place = ⟨0, 0, 0⟩ ∧ methodName owner method = key := by
  constructor
  · rintro ⟨entry, found, hentry, hfound, hkey⟩
    have hmem := mem_placedMethods.mpr ⟨hentry, hfound⟩
    obtain ⟨rfl, rfl, rfl⟩ := List.mem_singleton.mp hmem
    exact ⟨rfl, hkey⟩
  · rintro ⟨rfl, hkey⟩
    exact ⟨_, _, rfl, rfl, hkey⟩

theorem reaches_oneMethod {owner method : String} {usage caller : Usage} :
    (oneMethod owner method usage).Reaches caller ⟨0, 0, 0⟩ ↔
      caller.caller ≠ "" ∧ caller.method ≠ "" ∧
        methodName owner method = methodName caller.receiver caller.method := by
  simp only [Reaches, DeclaresLast, declares_oneMethod]
  grind

-- Two files, each of which calls the method of the other one.
theorem oneMethod_append_keeps_links :
    let first := oneMethod "A" "m" ⟨"A", "n", "B"⟩
    let second := oneMethod "B" "n" ⟨"B", "m", "A"⟩
    first.Declares ⟨0, 0, 0⟩ "A.m" ∧ (∀ other, ¬ second.Declares other "A.m") ∧
      (first.append second.files).linkCalls.1.method? ⟨0, 0, 0⟩ =
        some ⟨"m", some [⟨"B", "m", "A"⟩]⟩ ∧
      (first.append second.files).linkCalls.1.method? ⟨1, 0, 0⟩ =
        some ⟨"n", some [⟨"A", "n", "B"⟩]⟩ := by
  intro first second
  have hdecl : first.Declares ⟨0, 0, 0⟩ "A.m" := declares_oneMethod.mpr ⟨rfl, by decide⟩
  have hnew : ∀ other, ¬ second.Declares other "A.m" := by
    intro other hother
    exact absurd (declares_oneMethod.mp hother).2 (by decide)
  have hfirst : first.usages = [⟨"A", "n", "B"⟩] := rfl
  have hsecond : second.usages = [⟨"B", "m", "A"⟩] := rfl
  obtain ⟨-, -, hfront, hback⟩ := first.append_keeps_links second
  obtain ⟨method, hfound, -, -, hlinked⟩ := hfront ⟨0, 0, 0⟩ "A.m" hdecl hnew
  obtain rfl : ⟨"m", none⟩ = method := Option.some.inj hfound
  obtain ⟨-, -, hlinked'⟩ := hback ⟨0, 0, 0⟩ ⟨"n", none⟩ rfl
  refine ⟨hdecl, hnew, hlinked.trans ?_, hlinked'.trans ?_⟩
  · simp [callersAt, hfirst, hsecond, first, reaches_oneMethod, methodName, MethodEntry.addCallers]
  · simp [callersAt, hfirst, hsecond, second, reaches_oneMethod, methodName, MethodEntry.addCallers]

end Atlas

end ClassAtlas
