import ClassAtlas.Atlas.Place
import ClassAtlas.Proofs.Lists

namespace ClassAtlas

-- The order of classes in an atlas: by file, then by position there.
def ClassPlace.Before (a b : ClassPlace) : Prop :=
  a.file < b.file ∨ a.file = b.file ∧ a.index < b.index

theorem ClassPlace.Before.asymm {a b : ClassPlace} (h : a.Before b) : ¬ b.Before a := by
  unfold Before at h ⊢
  omega

namespace MethodPlace

-- The place of the class that declares the method.
def owner (place : MethodPlace) : ClassPlace := ⟨place.file, place.index⟩

-- The order of methods in an atlas: by file, then by class, then by position there.
def Before (a b : MethodPlace) : Prop :=
  a.owner.Before b.owner ∨ a.owner = b.owner ∧ a.method < b.method

theorem Before.asymm {a b : MethodPlace} (h : a.Before b) : ¬ b.Before a := by
  simp only [Before, ClassPlace.Before, owner, ClassPlace.mk.injEq] at h ⊢
  omega

end MethodPlace

namespace Atlas

theorem classes_eq_placedClasses (atlas : Atlas) :
    atlas.classes = atlas.placedClasses.map (·.2) := by
  rw [placedClasses, List.map_flatMap, classes, ← Lists.zipIdx_flatMap_fst]
  refine List.flatMap_congr ?_
  rintro ⟨file, i⟩ -
  rw [List.map_map]
  exact (List.zipIdx_map_fst 0 file.classes).symm

theorem mem_placedClasses {atlas : Atlas} {place : ClassPlace} {entry : ClassEntry} :
    (place, entry) ∈ atlas.placedClasses ↔ atlas.class? place = some entry := by
  simp only [placedClasses, List.mem_flatMap, List.mem_map, Prod.mk.injEq, Prod.exists,
    List.mem_zipIdx_iff_getElem?, class?, Option.bind_eq_some_iff]
  constructor
  · rintro ⟨file, i, hfile, found, j, hentry, rfl, rfl⟩
    exact ⟨file, hfile, hentry⟩
  · rintro ⟨file, hfile, hentry⟩
    exact ⟨file, place.file, hfile, entry, place.index, hentry, rfl, rfl⟩

theorem mem_placedMethods {atlas : Atlas} {place : MethodPlace} {entry : ClassEntry}
    {method : MethodEntry} :
    (place, entry, method) ∈ atlas.placedMethods ↔
      atlas.class? place.owner = some entry ∧ entry.methods[place.method]? = some method := by
  simp only [placedMethods, List.mem_flatMap, List.mem_map, Prod.mk.injEq, Prod.exists,
    List.mem_zipIdx_iff_getElem?, mem_placedClasses]
  constructor
  · rintro ⟨owner, found, hentry, _, k, hmethod, rfl, rfl, rfl⟩
    exact ⟨hentry, hmethod⟩
  · rintro ⟨hentry, hmethod⟩
    exact ⟨place.owner, entry, hentry, method, place.method, hmethod, rfl, rfl, rfl⟩

theorem placedClasses_pairwise (atlas : Atlas) :
    atlas.placedClasses.Pairwise (fun a b => a.1.Before b.1) := by
  refine List.pairwise_flatMap.mpr ⟨?_, ?_⟩
  · intro file _
    refine List.pairwise_map.mpr ((Lists.zipIdx_pairwise _).imp ?_)
    intro a b h
    exact Or.inr ⟨rfl, h⟩
  · refine (Lists.zipIdx_pairwise _).imp ?_
    intro a b h x hx y hy
    obtain ⟨_, _, rfl⟩ := List.mem_map.mp hx
    obtain ⟨_, _, rfl⟩ := List.mem_map.mp hy
    exact Or.inl h

theorem placedMethods_pairwise (atlas : Atlas) :
    atlas.placedMethods.Pairwise (fun a b => a.1.Before b.1) := by
  refine List.pairwise_flatMap.mpr ⟨?_, ?_⟩
  · intro entry _
    refine List.pairwise_map.mpr ((Lists.zipIdx_pairwise _).imp ?_)
    intro a b h
    exact Or.inr ⟨rfl, h⟩
  · refine atlas.placedClasses_pairwise.imp ?_
    intro a b h x hx y hy
    obtain ⟨_, _, rfl⟩ := List.mem_map.mp hx
    obtain ⟨_, _, rfl⟩ := List.mem_map.mp hy
    exact Or.inl h

theorem placedMethods_places_nodup (atlas : Atlas) : (atlas.placedMethods.map (·.1)).Nodup := by
  refine List.pairwise_map.mpr (atlas.placedMethods_pairwise.imp ?_)
  rintro a b h heq
  rw [heq] at h
  exact h.asymm h

-- Changes every method in view of its place. Files, classes and their other parts stay as
-- they are.
def mapMethods (atlas : Atlas) (change : MethodPlace → MethodEntry → MethodEntry) : Atlas :=
  ⟨atlas.files.mapIdx fun i file =>
    { file with classes := file.classes.mapIdx fun j entry =>
      { entry with methods := entry.methods.mapIdx fun k => change ⟨i, j, k⟩ } }⟩

theorem mapMethods_id (atlas : Atlas) : atlas.mapMethods (fun _ method => method) = atlas := by
  simp only [mapMethods, Lists.mapIdx_keep]

theorem mapMethods_mapMethods (atlas : Atlas)
    (first second : MethodPlace → MethodEntry → MethodEntry) :
    (atlas.mapMethods first).mapMethods second =
      atlas.mapMethods fun place method => second place (first place method) := by
  simp only [mapMethods, List.mapIdx_mapIdx, Function.comp_def]

-- A change at one place is a change everywhere that does nothing at the other places.
theorem modifyMethod_eq_mapMethods (atlas : Atlas) (place : MethodPlace)
    (change : MethodEntry → MethodEntry) :
    atlas.modifyMethod place change =
      atlas.mapMethods fun here method => if here = place then change method else method := by
  obtain ⟨atFile, atClass, atMethod⟩ := place
  simp only [modifyMethod, mapMethods, Lists.modify_eq_mapIdx, MethodPlace.mk.injEq]
  congr 2
  funext i file
  by_cases hi : i = atFile
  · simp only [hi, if_true, true_and]
    congr 2
    funext j entry
    by_cases hj : j = atClass
    · simp only [hj, if_true, true_and]
    · simp only [hj, if_false, false_and, Lists.mapIdx_keep]
  · simp only [hi, if_false, false_and, Lists.mapIdx_keep]

theorem method?_mapMethods (atlas : Atlas) (change : MethodPlace → MethodEntry → MethodEntry)
    (place : MethodPlace) :
    (atlas.mapMethods change).method? place = (atlas.method? place).map (change place) := by
  simp only [method?, class?, mapMethods, List.getElem?_mapIdx]
  cases atlas.files[place.file]? with
  | none => rfl
  | some file =>
      simp only [Option.map_some, Option.bind_some, List.getElem?_mapIdx]
      cases file.classes[place.index]? with
      | none => rfl
      | some entry => simp

end Atlas

end ClassAtlas
