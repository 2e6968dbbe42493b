import ClassAtlas.Proofs.Atlas.Append

namespace ClassAtlas

-- The same place in another file.
def MethodPlace.inFile (place : MethodPlace) (file : Nat) : MethodPlace :=
  ⟨file, place.index, place.method⟩

-- Two methods of one file stand in the same order wherever the file stands.
theorem MethodPlace.inFile_order {a b : MethodPlace} (hfile : a.file = b.file) (file : Nat) :
    a.inFile file = b.inFile file ∨ (a.inFile file).Before (b.inFile file) ↔
      a = b ∨ a.Before b := by
  obtain ⟨first, index, method⟩ := a
  obtain ⟨second, index', method'⟩ := b
  have hsame : first = second := hfile
  simp only [inFile, Before, owner, ClassPlace.Before, MethodPlace.mk.injEq, ClassPlace.mk.injEq,
    hsame, Nat.lt_irrefl]

namespace Lists

variable {α β : Type}

-- Nothing is left out, so every item keeps its position.
theorem getElem?_filterMap_of_isSome {items : List α} {f : α → Option β}
    (hsome : ∀ item ∈ items, (f item).isSome = true) (i : Nat) :
    (items.filterMap f)[i]? = (items[i]?).bind f := by
  induction items generalizing i with
  | nil => rfl
  | cons item rest ih =>
      obtain ⟨hitem, hrest⟩ := List.forall_mem_cons.mp hsome
      obtain ⟨value, hvalue⟩ := Option.isSome_iff_exists.mp hitem
      rw [List.filterMap_cons_some hvalue]
      cases i with
      | zero => simp [hvalue]
      | succ i => simpa using ih hrest i

theorem range_filterMap_getElem? (items : List α) :
    (List.range items.length).filterMap (items[·]?) = items := by
  have hsome : ∀ i ∈ List.range items.length, (items[i]?).isSome = true := by
    intro i hi
    simpa using hi
  apply List.ext_getElem?
  intro i
  rw [getElem?_filterMap_of_isSome hsome]
  by_cases hi : i < items.length <;> simp [hi]

end Lists

namespace Atlas

-- The files of an atlas, in the order in which a list gives their positions.
def reorder (atlas : Atlas) (order : List Nat) : Atlas :=
  ⟨order.filterMap (atlas.files[·]?)⟩

section Files

variable {atlas other : Atlas} (hfiles : other.files.Perm atlas.files)

include hfiles

theorem classes_perm : other.classes.Perm atlas.classes :=
  hfiles.flatMap_right _

theorem usages_perm : other.usages.Perm atlas.usages :=
  (classes_perm hfiles).flatMap_right _

theorem linkParents_snd_of_perm : other.linkParents.2 = atlas.linkParents.2 := by
  have hclasses := classes_perm hfiles
  have hnames (name : String) :
      name ∈ other.classes.map (·.name) ↔ name ∈ atlas.classes.map (·.name) :=
    (hclasses.map _).mem_iff
  simp only [linkParents_snd_eq_countP, hnames]
  exact (hclasses.flatMap_right _).countP_eq _

-- Which usages can be linked depends on what is declared, not on where.
theorem linkable_iff_of_perm (usage : Usage) : other.Linkable usage ↔ atlas.Linkable usage := by
  simp only [Linkable, exists_declares_iff, (classes_perm hfiles).mem_iff]

theorem linkCalls_snd_of_perm : other.linkCalls.2 = atlas.linkCalls.2 := by
  show other.links.length = atlas.links.length
  simp only [links_length, linkable_iff_of_perm hfiles]
  exact ((usages_perm hfiles).filter _).length_eq

end Files

-- No two files declare a method under the name.
def DeclaredInOneFile (atlas : Atlas) (key : String) : Prop :=
  ∀ a b, atlas.Declares a key → atlas.Declares b key → a.file = b.file

section Order

variable {atlas : Atlas} {order : List Nat} (horder : order.Perm (List.range atlas.files.length))

include horder

theorem reorder_files_perm : (atlas.reorder order).files.Perm atlas.files := by
  have hperm := horder.filterMap (atlas.files[·]?)
  rwa [Lists.range_filterMap_getElem?] at hperm

theorem files_reorder (i : Nat) :
    (atlas.reorder order).files[i]? = (order[i]?).bind (atlas.files[·]?) := by
  apply Lists.getElem?_filterMap_of_isSome
  intro k hk
  have hlt := List.mem_range.mp (horder.mem_iff.mp hk)
  simpa using hlt

theorem exists_position {file : Nat} (hfile : file < atlas.files.length) :
    ∃ i : Nat, order[i]? = some file := by
  have hmem : file ∈ order := horder.mem_iff.mpr (List.mem_range.mpr hfile)
  exact List.mem_iff_getElem?.mp hmem

-- A place of the reordered atlas holds what the place holds in the file that was moved there.
theorem class?_reorder {i old : Nat} (hold : order[i]? = some old) (index : Nat) :
    (atlas.reorder order).class? ⟨i, index⟩ = atlas.class? ⟨old, index⟩ := by
  simp only [class?, files_reorder horder, hold, Option.bind_some]

theorem method?_reorder {i : Nat} {place : MethodPlace} (hold : order[i]? = some place.file) :
    (atlas.reorder order).method? (place.inFile i) = atlas.method? place := by
  show ((atlas.reorder order).class? ⟨i, place.index⟩).bind _ = _
  rw [class?_reorder horder hold]
  rfl

theorem declares_reorder {i : Nat} {place : MethodPlace} (hold : order[i]? = some place.file)
    (key : String) :
    (atlas.reorder order).Declares (place.inFile i) key ↔ atlas.Declares place key := by
  have hclass : (atlas.reorder order).class? (place.inFile i).owner = atlas.class? place.owner :=
    class?_reorder horder hold place.index
  rw [Declares, hclass]
  rfl

-- Every method of the reordered atlas comes from some file.
theorem exists_of_declares_reorder {moved : MethodPlace} {key : String}
    (hdecl : (atlas.reorder order).Declares moved key) :
    ∃ place, order[moved.file]? = some place.file ∧ place.inFile moved.file = moved ∧
      atlas.Declares place key := by
  have hlt := file_lt_of_declares hdecl
  have hlength : (atlas.reorder order).files.length = order.length := by
    rw [(reorder_files_perm horder).length_eq, horder.length_eq, List.length_range]
  have hold : order[moved.file]? = some order[moved.file] := List.getElem?_eq_getElem (by omega)
  refine ⟨moved.inFile order[moved.file], hold, rfl, ?_⟩
  exact (declares_reorder horder hold key).mp hdecl

theorem declaresLast_reorder {i : Nat} {place : MethodPlace} (hold : order[i]? = some place.file)
    {key : String} (hone : atlas.DeclaredInOneFile key) :
    (atlas.reorder order).DeclaresLast (place.inFile i) key ↔ atlas.DeclaresLast place key := by
  have hnodup : order.Nodup := horder.nodup_iff.mpr List.nodup_range
  rw [DeclaresLast, declares_reorder horder hold, DeclaresLast]
  refine and_congr_right fun hdecl => ⟨?_, ?_⟩
  · intro hlast other hother
    have hfile := hone other place hother hdecl
    rw [← MethodPlace.inFile_order hfile i]
    apply hlast
    rw [← hfile] at hold
    exact (declares_reorder horder hold key).mpr hother
  · intro hlast moved hmoved
    obtain ⟨other, hother, hinFile, hdecl'⟩ := exists_of_declares_reorder horder hmoved
    have hfile := hone other place hdecl' hdecl
    -- both come from one file, and that file has one position
    have hi : moved.file = i := by
      have hlt := (List.getElem?_eq_some_iff.mp hother).1
      exact (List.getElem?_inj hlt hnodup).mp (by rw [hother, hold, hfile])
    rw [← hinFile, hi, MethodPlace.inFile_order hfile]
    exact hlast other hdecl'

theorem callersAt_reorder {i : Nat} {place : MethodPlace} (hold : order[i]? = some place.file)
    {key : String} (hdecl : atlas.Declares place key) (hone : atlas.DeclaredInOneFile key) :
    ((atlas.reorder order).callersAt (place.inFile i)).Perm (atlas.callersAt place) := by
  have hreach (usage : Usage) :
      (atlas.reorder order).Reaches usage (place.inFile i) ↔ atlas.Reaches usage place := by
    by_cases hkey : methodName usage.receiver usage.method = key
    · rw [Reaches, hkey, declaresLast_reorder horder hold hone, Reaches, hkey]
    · -- the method has one name, and it is not the one that the usage asks for
      apply iff_of_false
      · intro h
        exact hkey (((declares_reorder horder hold _).mp h.2.2.1).unique hdecl)
      · intro h
        exact hkey (h.2.2.1.unique hdecl)
  simp only [callersAt, hreach]
  exact (usages_perm (reorder_files_perm horder)).filter _

end Order

theorem linkParents_fst_reorder (atlas : Atlas) (order : List Nat) :
    (atlas.reorder order).linkParents.1 = atlas.linkParents.1.reorder order := by
  simp only [linkParents_fst, mapClasses, reorder, Lists.mapIdx_const, List.map_filterMap,
    List.getElem?_map]

-- The order of the files does not decide what is linked. Each file gets the parents that it
-- gets in any other order, and the counts are the same. A method whose name is declared in one
-- file only gets the same callers, though perhaps in another order: one that is declared in two
-- files would have another last place.
theorem reorder_keeps_links (atlas : Atlas) (order : List Nat)
    (horder : order.Perm (List.range atlas.files.length)) :
    let moved := atlas.reorder order
    moved.linkParents = (atlas.linkParents.1.reorder order, atlas.linkParents.2) ∧
      moved.linkCalls.2 = atlas.linkCalls.2 ∧
      ∀ place key, atlas.Declares place key → atlas.DeclaredInOneFile key →
        ∃ (i : Nat) (method : MethodEntry), order[i]? = some place.file ∧
          atlas.method? place = some method ∧
          moved.method? (place.inFile i) = some method ∧
          atlas.linkCalls.1.method? place = some (method.addCallers (atlas.callersAt place)) ∧
          moved.linkCalls.1.method? (place.inFile i) =
            some (method.addCallers (moved.callersAt (place.inFile i))) ∧
          (moved.callersAt (place.inFile i)).Perm (atlas.callersAt place) := by
  intro moved
  have hfiles : moved.files.Perm atlas.files := reorder_files_perm horder
  refine ⟨?_, linkCalls_snd_of_perm hfiles, ?_⟩
  · exact Prod.ext (atlas.linkParents_fst_reorder order) (linkParents_snd_of_perm hfiles)
  · intro place key hdecl hone
    obtain ⟨i, hold⟩ := exists_position horder (file_lt_of_declares hdecl)
    obtain ⟨method, hmethod⟩ := hdecl.exists_method
    have hmoved : moved.method? (place.inFile i) = some method := by
      rw [method?_reorder horder hold, hmethod]
    have hcallers := callersAt_reorder horder hold hdecl hone
    refine ⟨i, method, hold, hmethod, hmoved, ?_, ?_, hcallers⟩
    · rw [method?_linkCalls, hmethod, Option.map_some]
    · rw [method?_linkCalls, hmoved, Option.map_some]

-- A class with two methods of one name that it calls itself, and a class in another file that
-- calls them too.
def overloaded : Atlas :=
  ⟨[⟨"a.ts", [⟨"A", [], none, [⟨"m", none⟩, ⟨"m", none⟩], [⟨"A", "m", "A"⟩]⟩]⟩,
    ⟨"b.ts", [⟨"B", ["A"], none, [], [⟨"B", "m", "A"⟩]⟩]⟩]⟩

theorem declares_overloaded {place : MethodPlace} {key : String} :
    overloaded.Declares place key ↔ (place = ⟨0, 0, 0⟩ ∨ place = ⟨0, 0, 1⟩) ∧ "A.m" = key := by
  constructor
  · rintro ⟨entry, method, hentry, hmethod, rfl⟩
    have hmem := mem_placedMethods.mpr ⟨hentry, hmethod⟩
    rcases List.mem_cons.mp hmem with hfirst | hsecond
    · cases hfirst
      exact ⟨Or.inl rfl, by decide⟩
    · cases List.mem_singleton.mp hsecond
      exact ⟨Or.inr rfl, by decide⟩
  · rintro ⟨rfl | rfl, rfl⟩
    · exact ⟨_, _, rfl, rfl, by decide⟩
    · exact ⟨_, _, rfl, rfl, by decide⟩

-- The caller in the other file comes last at first, and first when the files are exchanged.
theorem overloaded_reorder_keeps_links :
    [1, 0].Perm (List.range overloaded.files.length) ∧
      overloaded.Declares ⟨0, 0, 1⟩ "A.m" ∧ overloaded.DeclaredInOneFile "A.m" ∧
      (overloaded.reorder [1, 0]).linkCalls.2 = overloaded.linkCalls.2 ∧
      overloaded.callersAt ⟨0, 0, 1⟩ = [⟨"A", "m", "A"⟩, ⟨"B", "m", "A"⟩] ∧
      ((overloaded.reorder [1, 0]).callersAt ⟨1, 0, 1⟩).Perm
        [⟨"A", "m", "A"⟩, ⟨"B", "m", "A"⟩] := by
  have horder : [1, 0].Perm (List.range overloaded.files.length) := by decide
  have hdecl : overloaded.Declares ⟨0, 0, 1⟩ "A.m" := declares_overloaded.mpr ⟨Or.inr rfl, rfl⟩
  have hone : overloaded.DeclaredInOneFile "A.m" := by
    intro a b ha hb
    rcases (declares_overloaded.mp ha).1 with rfl | rfl <;>
      rcases (declares_overloaded.mp hb).1 with rfl | rfl <;> rfl
  have hlast : overloaded.DeclaresLast ⟨0, 0, 1⟩ "A.m" := by
    refine ⟨hdecl, fun other hother => ?_⟩
    rcases (declares_overloaded.mp hother).1 with rfl | rfl
    · exact Or.inr (Or.inr ⟨rfl, by decide⟩)
    · exact Or.inl rfl
  have hcallers : overloaded.callersAt ⟨0, 0, 1⟩ = [⟨"A", "m", "A"⟩, ⟨"B", "m", "A"⟩] := by
    have husages : overloaded.usages = [⟨"A", "m", "A"⟩, ⟨"B", "m", "A"⟩] := rfl
    have hname : methodName "A" "m" = "A.m" := by decide
    simp [callersAt, husages, Reaches, hname, hlast]
  obtain ⟨-, hcount, hmethods⟩ := overloaded.reorder_keeps_links [1, 0] horder
  obtain ⟨i, _, hold, -, -, -, -, hperm⟩ := hmethods ⟨0, 0, 1⟩ "A.m" hdecl hone
  have hi : i = 1 := by
    rcases i with _ | _ | i
    · simp at hold
    · rfl
    · simp at hold
  rw [hi, hcallers] at hperm
  exact ⟨horder, hdecl, hone, hcount, hcallers, hperm⟩

end Atlas

end ClassAtlas
