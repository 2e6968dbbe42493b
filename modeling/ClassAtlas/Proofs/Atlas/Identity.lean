import ClassAtlas.Proofs.Atlas.Link

namespace ClassAtlas

-- How many dots a name has.
def dots (name : String) : Nat := name.toList.count '.'

namespace Atlas

-- A place declares a method of a class, under the names that the two have.
def DeclaresAs (atlas : Atlas) (place : MethodPlace) (owner name : String) : Prop :=
  ∃ entry method, atlas.class? place.owner = some entry ∧
    entry.methods[place.method]? = some method ∧ entry.name = owner ∧ method.name = name

-- Linking puts a usage behind the callers that the method at a place already had.
def Appends (atlas : Atlas) (place : MethodPlace) (usage : Usage) : Prop :=
  ∃ before after added, atlas.method? place = some before ∧
    atlas.linkCalls.1.method? place = some after ∧
    after.callers = some (before.callers.getD [] ++ added) ∧ usage ∈ added

theorem declares_iff (atlas : Atlas) (place : MethodPlace) (key : String) :
    atlas.Declares place key ↔
      ∃ owner name, atlas.DeclaresAs place owner name ∧ methodName owner name = key := by
  constructor
  · rintro ⟨entry, method, hentry, hmethod, hkey⟩
    exact ⟨entry.name, method.name, ⟨entry, method, hentry, hmethod, rfl, rfl⟩, hkey⟩
  · rintro ⟨_, _, ⟨entry, method, hentry, hmethod, rfl, rfl⟩, hkey⟩
    exact ⟨entry, method, hentry, hmethod, hkey⟩

-- A place has one class and one method.
theorem DeclaresAs.unique {atlas : Atlas} {place : MethodPlace} {owner owner' name name' : String}
    (h : atlas.DeclaresAs place owner name) (h' : atlas.DeclaresAs place owner' name') :
    owner = owner' ∧ name = name' := by
  obtain ⟨entry, method, hentry, hmethod, rfl, rfl⟩ := h
  obtain ⟨entry', method', hentry', hmethod', rfl, rfl⟩ := h'
  obtain rfl := Option.some.inj (hentry.symm.trans hentry')
  obtain rfl := Option.some.inj (hmethod.symm.trans hmethod')
  exact ⟨rfl, rfl⟩

theorem appends_iff (atlas : Atlas) (place : MethodPlace) (usage : Usage) :
    atlas.Appends place usage ↔ usage ∈ atlas.callersAt place := by
  unfold Appends
  simp only [linkCalls_fst, method?_mapMethods]
  constructor
  · rintro ⟨before, after, added, hbefore, hafter, hcallers, husage⟩
    rw [hbefore, Option.map_some, Option.some_inj] at hafter
    subst hafter
    unfold MethodEntry.addCallers at hcallers
    split at hcallers
    · -- nothing reaches the place, and a list is not followed by more of it in itself
      cases hold : before.callers <;> simp [hold] at hcallers
      simp [hcallers] at husage
    · have hadded := List.append_cancel_left (Option.some.inj hcallers)
      rwa [hadded]
  · intro husage
    obtain ⟨-, -, -, hdecl, -⟩ := mem_callersAt.mp husage
    obtain ⟨method, hbefore⟩ := hdecl.exists_method
    refine ⟨method, _, atlas.callersAt place, hbefore, by rw [hbefore]; rfl, ?_, husage⟩
    rw [MethodEntry.addCallers, if_neg (List.ne_nil_of_mem husage)]

theorem methodName_toList (owner method : String) :
    (methodName owner method).toList = owner.toList ++ '.' :: method.toList := by
  simp [methodName]

private theorem eq_nil_of_count_eq {front back back' : List Char}
    (hsplit : '.' :: back = front ++ '.' :: back') (hcount : back.count '.' = back'.count '.') :
    front = [] := by
  cases front with
  | nil => rfl
  | cons c front =>
      rw [List.cons_append, List.cons.injEq] at hsplit
      rw [hsplit.2] at hcount
      simp only [List.count_append, List.count_cons_self] at hcount
      omega

-- A name can be split at each of its dots. Which one it was shows in how many dots are left
-- to the method.
theorem methodName_eq_iff_dots {owner owner' name name' : String}
    (h : methodName owner name = methodName owner' name') :
    (owner = owner' ∧ name = name') ↔ dots name = dots name' := by
  constructor
  · rintro ⟨-, rfl⟩
    rfl
  · intro hdots
    replace h := congrArg String.toList h
    rw [methodName_toList, methodName_toList] at h
    obtain ⟨front, howner, hrest⟩ | ⟨front, howner, hrest⟩ := List.append_eq_append_iff.mp h
    · obtain rfl := eq_nil_of_count_eq hrest hdots
      simp only [List.append_nil, List.nil_append, List.cons.injEq, true_and] at howner hrest
      exact ⟨String.toList_inj.mp howner.symm, String.toList_inj.mp hrest⟩
    · obtain rfl := eq_nil_of_count_eq hrest hdots.symm
      simp only [List.append_nil, List.nil_append, List.cons.injEq, true_and] at howner hrest
      exact ⟨String.toList_inj.mp howner, String.toList_inj.mp hrest.symm⟩

theorem dots_methodName (owner name : String) :
    dots (methodName owner name) = dots owner + dots name + 1 := by
  simp only [dots, methodName_toList, List.count_append, List.count_cons_self]
  omega

-- A name with a dot is also the name of a method of another class: that is how two methods
-- come to share one name.
theorem exists_other_split (owner name : String) (hdots : dots owner ≠ 0 ∨ dots name ≠ 0) :
    ∃ owner' name', methodName owner' name' = methodName owner name ∧ dots name' ≠ dots name := by
  have split_at {text : String} (h : dots text ≠ 0) :
      ∃ front back, text.toList = front ++ '.' :: back := by
    exact List.append_of_mem (List.count_pos_iff.mp (Nat.pos_of_ne_zero h))
  obtain h | h := hdots
  · obtain ⟨front, back, hsplit⟩ := split_at h
    refine ⟨String.ofList front, String.ofList (back ++ '.' :: name.toList), ?_, ?_⟩
    · apply String.toList_inj.mp
      simp [methodName_toList, hsplit]
    · simp only [dots, String.toList_ofList, List.count_append, List.count_cons_self]
      omega
  · obtain ⟨front, back, hsplit⟩ := split_at h
    refine ⟨String.ofList (owner.toList ++ '.' :: front), String.ofList back, ?_, ?_⟩
    · apply String.toList_inj.mp
      simp [methodName_toList, hsplit]
    · simp only [dots, hsplit, String.toList_ofList, List.count_append, List.count_cons_self]
      omega

-- The table answers with methods of just the asked names as long as no name has a dot.
theorem method?_exact_iff_dotless (atlas : Atlas) :
    (∀ owner name place, atlas.methodTable.method? owner name = some place →
        atlas.DeclaresAs place owner name) ↔
      ∀ place owner name, atlas.DeclaresAs place owner name → dots owner = 0 ∧ dots name = 0 := by
  constructor
  · intro hexact place owner name hdecl
    by_contra hdots
    obtain ⟨owner', name', hkey, hne⟩ := exists_other_split owner name (by omega)
    -- both pairs of names lead to the last place that declares the name
    have hsome := (atlas.methodTable_isSome_iff (methodName owner name)).mpr
      ⟨place, (atlas.declares_iff _ _).mpr ⟨owner, name, hdecl, rfl⟩⟩
    obtain ⟨last, hlast⟩ := Option.isSome_iff_exists.mp hsome
    have hfirst := hexact owner name last hlast
    have hother := hexact owner' name' last (by rw [Table.method?, hkey]; exact hlast)
    exact hne (congrArg dots (hother.unique hfirst).2)
  · intro hdotless owner name place hfound
    obtain ⟨hdecl, -⟩ := (atlas.methodTable_eq_some_iff _ _).mp hfound
    obtain ⟨owner', name', hdecl', hkey⟩ := (atlas.declares_iff _ _).mp hdecl
    obtain ⟨howner, hname⟩ := hdotless place owner' name' hdecl'
    have hcount := congrArg dots hkey
    rw [dots_methodName, dots_methodName] at hcount
    obtain ⟨rfl, rfl⟩ := (methodName_eq_iff_dots hkey).mpr (by omega)
    exact hdecl'

-- A caller is recorded at a method of the name and class it calls if and only if the two
-- method names have equally many dots.
theorem Appends.exact_iff_dots {atlas : Atlas} {place : MethodPlace} {usage : Usage}
    (happends : atlas.Appends place usage) {owner name : String}
    (hdecl : atlas.DeclaresAs place owner name) :
    (owner = usage.receiver ∧ name = usage.method) ↔ dots name = dots usage.method := by
  obtain ⟨-, hreach⟩ := mem_callersAt.mp ((atlas.appends_iff place usage).mp happends)
  obtain ⟨owner', name', hdecl', hkey⟩ := (atlas.declares_iff _ _).mp hreach.2.2.1
  obtain ⟨rfl, rfl⟩ := hdecl.unique hdecl'
  exact methodName_eq_iff_dots hkey

-- When methods are told apart by their class and name: for the table, when no declared name
-- has a dot; for a single caller, when the method that it is recorded at has as many dots in
-- its name as the method that it calls.
theorem linked_by_class_and_name_iff (atlas : Atlas) :
    ((∀ owner name place, atlas.methodTable.method? owner name = some place →
          atlas.DeclaresAs place owner name) ↔
        ∀ place owner name, atlas.DeclaresAs place owner name → dots owner = 0 ∧ dots name = 0) ∧
      ∀ place usage, atlas.Appends place usage → ∀ owner name, atlas.DeclaresAs place owner name →
        (owner = usage.receiver ∧ name = usage.method ↔ dots name = dots usage.method) :=
  ⟨atlas.method?_exact_iff_dotless, fun _ _ happends _ _ hdecl => happends.exact_iff_dots hdecl⟩

-- A class `A` with a method `B.c`, and a call of the method `c` of a class `A.B` that is not
-- in the atlas.
def dottedMethod : Atlas :=
  ⟨[⟨"a.ts", [⟨"A", [], none, [⟨"B.c", none⟩], [⟨"A", "c", "A.B"⟩]⟩]⟩]⟩

theorem dottedMethod_links_other_class :
    dottedMethod.Appends ⟨0, 0, 0⟩ ⟨"A", "c", "A.B"⟩ ∧
      dottedMethod.methodTable.method? "A.B" "c" = some ⟨0, 0, 0⟩ ∧
      dottedMethod.DeclaresAs ⟨0, 0, 0⟩ "A" "B.c" ∧
      ¬ dottedMethod.DeclaresAs ⟨0, 0, 0⟩ "A.B" "c" := by
  have hdecl : dottedMethod.DeclaresAs ⟨0, 0, 0⟩ "A" "B.c" := ⟨_, _, rfl, rfl, rfl, rfl⟩
  have hlast : dottedMethod.DeclaresLast ⟨0, 0, 0⟩ (methodName "A.B" "c") := by
    refine ⟨(dottedMethod.declares_iff _ _).mpr ⟨"A", "B.c", hdecl, by decide⟩, ?_⟩
    rintro other ⟨entry, method, hentry, hmethod, -⟩
    have hmem := mem_placedMethods.mpr ⟨hentry, hmethod⟩
    exact Or.inl (congrArg Prod.fst (List.mem_singleton.mp hmem))
  refine ⟨?_, (dottedMethod.methodTable_eq_some_iff _ _).mpr hlast, hdecl, ?_⟩
  · have husage : ⟨"A", "c", "A.B"⟩ ∈ dottedMethod.usages := by
      simp [dottedMethod, usages, classes]
    have hreach : dottedMethod.Reaches ⟨"A", "c", "A.B"⟩ ⟨0, 0, 0⟩ :=
      ⟨by decide, by decide, hlast⟩
    exact (dottedMethod.appends_iff _ _).mpr (mem_callersAt.mpr ⟨husage, hreach⟩)
  · intro hother
    exact absurd (hdecl.unique hother).1 (by decide)

end Atlas

end ClassAtlas
