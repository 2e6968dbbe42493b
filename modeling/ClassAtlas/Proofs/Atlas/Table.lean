import Mathlib.Data.List.Induction
import ClassAtlas.Atlas.Table
import ClassAtlas.Proofs.Atlas.Place

namespace ClassAtlas

namespace Table

variable {α : Type}

-- One more entry decides its own name and no other.
theorem getElem?_ofEntries_concat (entries : List (String × α)) (entry : String × α)
    (name : String) :
    (ofEntries (entries ++ [entry]))[name]? =
      if entry.1 = name then some entry.2 else (ofEntries entries)[name]? := by
  simp only [ofEntries, List.foldl_append, List.foldl_cons, List.foldl_nil,
    Std.HashMap.getElem?_insert, beq_iff_eq]

-- The last entry of a name counts.
theorem getElem?_ofEntries (entries : List (String × α)) (name : String) :
    (ofEntries entries)[name]? = (entries.reverse.find? (·.1 = name)).map (·.2) := by
  induction entries using List.reverseRecOn with
  | nil => simp [ofEntries]
  | append_singleton entries entry ih =>
      rw [getElem?_ofEntries_concat, List.reverse_concat, List.find?_cons, ih]
      by_cases h : entry.1 = name <;> simp [h]

theorem getElem?_ofEntries_isSome (entries : List (String × α)) (name : String) :
    (ofEntries entries)[name]?.isSome ↔ ∃ value, (name, value) ∈ entries := by
  simp [getElem?_ofEntries]

-- When the values of the entries only grow, a name stands for the greatest of its values.
theorem getElem?_ofEntries_eq_some_iff (before : α → α → Prop)
    (hasymm : ∀ a b, before a b → ¬ before b a) (entries : List (String × α))
    (hsorted : entries.Pairwise (fun a b => before a.2 b.2)) (name : String) (value : α) :
    (ofEntries entries)[name]? = some value ↔
      (name, value) ∈ entries ∧
        ∀ other, (name, other) ∈ entries → other = value ∨ before other value := by
  induction entries using List.reverseRecOn generalizing value with
  | nil => simp [ofEntries]
  | append_singleton entries entry ih =>
      obtain ⟨hrest, -, hlast⟩ := List.pairwise_append.mp hsorted
      replace hlast : ∀ old ∈ entries, before old.2 entry.2 := by simpa using hlast
      rw [getElem?_ofEntries_concat]
      split
      · next h =>
        subst h
        constructor
        · rintro ⟨⟩
          refine ⟨by simp, ?_⟩
          intro other hother
          obtain hold | hnew := List.mem_append.mp hother
          · exact Or.inr (hlast _ hold)
          · exact Or.inl (by simpa using congrArg Prod.snd (List.mem_singleton.mp hnew))
        · rintro ⟨hmem, hmax⟩
          obtain hold | hnew := List.mem_append.mp hmem
          · -- the value of the new entry would lie before an older one
            obtain heq | hbefore := hmax entry.2 (by simp)
            · rw [heq]
            · exact absurd hbefore (hasymm _ _ (hlast _ hold))
          · exact congrArg some (congrArg Prod.snd (List.mem_singleton.mp hnew)).symm
      · next h =>
        have hmem : ∀ other, (name, other) ∈ entries ++ [entry] ↔ (name, other) ∈ entries := by
          intro other
          simp [Prod.ext_iff, Ne.symm h]
        simp only [hmem, ih hrest]

end Table

namespace Atlas

-- A place declares a class of a name.
def Names (atlas : Atlas) (place : ClassPlace) (name : String) : Prop :=
  ∃ entry, atlas.class? place = some entry ∧ entry.name = name

private theorem mem_classTable_entries (atlas : Atlas) (place : ClassPlace) (name : String) :
    (name, place) ∈ (atlas.placedClasses.map fun (place, entry) => (entry.name, place)) ↔
      atlas.Names place name := by
  simp only [List.mem_map, Prod.exists, Prod.mk.injEq, mem_placedClasses, Names]
  constructor
  · rintro ⟨_, entry, hentry, hname, rfl⟩
    exact ⟨entry, hentry, hname⟩
  · rintro ⟨entry, hentry, hname⟩
    exact ⟨place, entry, hentry, hname, rfl⟩

theorem classTable_eq_some_iff (atlas : Atlas) (place : ClassPlace) (name : String) :
    atlas.classTable[name]? = some place ↔
      atlas.Names place name ∧
        ∀ other, atlas.Names other name → other = place ∨ other.Before place := by
  have hsorted : (atlas.placedClasses.map fun (place, entry) => (entry.name, place)).Pairwise
      (fun a b => a.2.Before b.2) := List.pairwise_map.mpr atlas.placedClasses_pairwise
  rw [classTable, Table.getElem?_ofEntries_eq_some_iff ClassPlace.Before
    (fun _ _ => ClassPlace.Before.asymm) _ hsorted]
  simp only [mem_classTable_entries]

theorem classTable_isSome_iff (atlas : Atlas) (name : String) :
    atlas.classTable[name]?.isSome ↔ ∃ place, atlas.Names place name := by
  rw [classTable, Table.getElem?_ofEntries_isSome]
  simp only [mem_classTable_entries]

-- A place declares a method under a name that is put together from those of the class and
-- the method there.
def Declares (atlas : Atlas) (place : MethodPlace) (name : String) : Prop :=
  ∃ entry method, atlas.class? place.owner = some entry ∧
    entry.methods[place.method]? = some method ∧ methodName entry.name method.name = name

theorem Declares.exists_method {atlas : Atlas} {place : MethodPlace} {name : String}
    (hdecl : atlas.Declares place name) : ∃ method, atlas.method? place = some method := by
  obtain ⟨entry, method, hentry, hmethod, -⟩ := hdecl
  refine ⟨method, ?_⟩
  change (atlas.class? place.owner).bind _ = _
  rw [hentry, Option.bind_some, hmethod]

-- The last place that declares a name.
def DeclaresLast (atlas : Atlas) (place : MethodPlace) (name : String) : Prop :=
  atlas.Declares place name ∧
    ∀ other, atlas.Declares other name → other = place ∨ other.Before place

private theorem mem_methodTable_entries (atlas : Atlas) (place : MethodPlace) (name : String) :
    (name, place) ∈ (atlas.placedMethods.map fun (place, entry, method) =>
      (methodName entry.name method.name, place)) ↔ atlas.Declares place name := by
  simp only [List.mem_map, Prod.exists, Prod.mk.injEq, mem_placedMethods, Declares]
  constructor
  · rintro ⟨_, entry, method, ⟨hentry, hmethod⟩, hname, rfl⟩
    exact ⟨entry, method, hentry, hmethod, hname⟩
  · rintro ⟨entry, method, hentry, hmethod, hname⟩
    exact ⟨place, entry, method, ⟨hentry, hmethod⟩, hname, rfl⟩

theorem methodTable_eq_some_iff (atlas : Atlas) (place : MethodPlace) (name : String) :
    atlas.methodTable[name]? = some place ↔ atlas.DeclaresLast place name := by
  have hsorted : (atlas.placedMethods.map fun (place, entry, method) =>
      (methodName entry.name method.name, place)).Pairwise (fun a b => a.2.Before b.2) :=
    List.pairwise_map.mpr atlas.placedMethods_pairwise
  rw [methodTable, Table.getElem?_ofEntries_eq_some_iff MethodPlace.Before
    (fun _ _ => MethodPlace.Before.asymm) _ hsorted]
  simp only [mem_methodTable_entries, DeclaresLast]

-- A look-up that can be evaluated.
theorem method?_methodTable (atlas : Atlas) (owner method : String) :
    atlas.methodTable.method? owner method =
      (atlas.placedMethods.reverse.find? fun entry =>
        methodName entry.2.1.name entry.2.2.name = methodName owner method).map (·.1) := by
  rw [Table.method?, methodTable, Table.getElem?_ofEntries, ← List.map_reverse, List.find?_map,
    Option.map_map]
  rfl

theorem methodTable_isSome_iff (atlas : Atlas) (name : String) :
    atlas.methodTable[name]?.isSome ↔ ∃ place, atlas.Declares place name := by
  rw [methodTable, Table.getElem?_ofEntries_isSome]
  simp only [mem_methodTable_entries]

-- What is declared, said by the classes and not by their places.
theorem exists_declares_iff (atlas : Atlas) (key : String) :
    (∃ place, atlas.Declares place key) ↔
      ∃ entry ∈ atlas.classes, ∃ method ∈ entry.methods,
        methodName entry.name method.name = key := by
  simp only [classes_eq_placedClasses, List.mem_map, Prod.exists, mem_placedClasses]
  constructor
  · rintro ⟨place, entry, method, hentry, hmethod, hkey⟩
    exact ⟨entry, ⟨place.owner, entry, hentry, rfl⟩, method, List.mem_of_getElem? hmethod, hkey⟩
  · rintro ⟨_, ⟨place, entry, hentry, rfl⟩, method, hmethod, hkey⟩
    obtain ⟨k, hk⟩ := List.mem_iff_getElem?.mp hmethod
    exact ⟨⟨place.file, place.index, k⟩, entry, method, hentry, hk, hkey⟩

end Atlas

end ClassAtlas
