import ClassAtlas.Atlas.Link
import ClassAtlas.Proofs.Atlas.Place

namespace ClassAtlas

-- A class as it is declared, without anything that linking writes.
def ClassEntry.bare (entry : ClassEntry) : ClassEntry :=
  { entry with
    linked := none
    methods := entry.methods.map fun method => { method with callers := none } }

theorem ClassEntry.unset_of_bare {entry : ClassEntry} (hbare : entry.bare = entry) :
    entry.linked = none ∧ ∀ method ∈ entry.methods, method.callers = none := by
  refine ⟨congrArg ClassEntry.linked hbare.symm, fun method hmethod => ?_⟩
  rw [← hbare] at hmethod
  obtain ⟨old, -, rfl⟩ := List.mem_map.mp hmethod
  rfl

namespace Atlas

-- Changes every class in view of its place. The files stay as they are otherwise.
def mapClasses (atlas : Atlas) (change : ClassPlace → ClassEntry → ClassEntry) : Atlas :=
  ⟨atlas.files.mapIdx fun i file =>
    { file with classes := file.classes.mapIdx fun j => change ⟨i, j⟩ }⟩

theorem mapClasses_id (atlas : Atlas) : atlas.mapClasses (fun _ entry => entry) = atlas := by
  simp only [mapClasses, Lists.mapIdx_keep]

theorem mapClasses_mapClasses (atlas : Atlas)
    (first second : ClassPlace → ClassEntry → ClassEntry) :
    (atlas.mapClasses first).mapClasses second =
      atlas.mapClasses fun place entry => second place (first place entry) := by
  simp only [mapClasses, List.mapIdx_mapIdx, Function.comp_def]

theorem class?_mapClasses (atlas : Atlas) (change : ClassPlace → ClassEntry → ClassEntry)
    (place : ClassPlace) :
    (atlas.mapClasses change).class? place = (atlas.class? place).map (change place) := by
  simp only [class?, mapClasses, List.getElem?_mapIdx]
  cases atlas.files[place.file]? with
  | none => rfl
  | some file => simp

theorem paths_mapClasses (atlas : Atlas) (change : ClassPlace → ClassEntry → ClassEntry) :
    (atlas.mapClasses change).files.map (·.path) = atlas.files.map (·.path) := by
  simp only [mapClasses, Lists.map_mapIdx, Lists.mapIdx_const]

theorem mapMethods_eq_mapClasses (atlas : Atlas)
    (change : MethodPlace → MethodEntry → MethodEntry) :
    atlas.mapMethods change = atlas.mapClasses fun place entry =>
      { entry with
        methods := entry.methods.mapIdx fun k => change ⟨place.file, place.index, k⟩ } := rfl

theorem placedClasses_mapClasses (atlas : Atlas)
    (change : ClassPlace → ClassEntry → ClassEntry) :
    (atlas.mapClasses change).placedClasses =
      atlas.placedClasses.map fun (place, entry) => (place, change place entry) := by
  simp only [placedClasses, mapClasses, Lists.zipIdx_mapIdx, List.map_flatMap, List.flatMap_map,
    List.map_map, Function.comp_def]

theorem exists_of_mem_mapClasses {atlas : Atlas}
    {change : ClassPlace → ClassEntry → ClassEntry} {entry : ClassEntry}
    (hentry : entry ∈ (atlas.mapClasses change).classes) :
    ∃ place, ∃ old ∈ atlas.classes, change place old = entry := by
  rw [classes_eq_placedClasses, placedClasses_mapClasses, List.map_map] at hentry
  obtain ⟨⟨place, old⟩, hold, rfl⟩ := List.mem_map.mp hentry
  refine ⟨place, old, ?_, rfl⟩
  rw [classes_eq_placedClasses]
  exact List.mem_map_of_mem (f := (·.2)) hold

def bare (atlas : Atlas) : Atlas :=
  atlas.mapClasses fun _ entry => entry.bare

theorem bare_eq_self {atlas : Atlas} (hclasses : ∀ entry ∈ atlas.classes, entry.bare = entry) :
    atlas.bare = atlas := by
  have hfile : ∀ file ∈ atlas.files,
      { file with classes := file.classes.map ClassEntry.bare } = file := by
    intro file hfile
    have hentries : file.classes.map ClassEntry.bare = file.classes :=
      (List.map_congr_left fun entry hentry =>
        hclasses entry (List.mem_flatMap.mpr ⟨file, hfile, hentry⟩)).trans (List.map_id _)
    rw [hentries]
  simp only [bare, mapClasses, Lists.mapIdx_const]
  exact congrArg Atlas.mk ((List.map_congr_left hfile).trans (List.map_id _))

theorem bare_mapClasses (atlas : Atlas) {change : ClassPlace → ClassEntry → ClassEntry}
    (hchange : ∀ place entry, (change place entry).bare = entry.bare) :
    (atlas.mapClasses change).bare = atlas.bare := by
  simp only [bare, mapClasses_mapClasses, hchange]

-- Linking looks at nothing that linking writes: the tables, the links and the counts are
-- those of the bare atlas.
theorem classTable_bare (atlas : Atlas) : atlas.bare.classTable = atlas.classTable := by
  simp only [classTable, bare, placedClasses_mapClasses, List.map_map, Function.comp_def,
    ClassEntry.bare]

theorem methodTable_bare (atlas : Atlas) : atlas.bare.methodTable = atlas.methodTable := by
  simp only [methodTable, placedMethods, bare, placedClasses_mapClasses, List.flatMap_map,
    List.map_flatMap, List.map_map, Function.comp_def, ClassEntry.bare, List.zipIdx_map]
  rfl

theorem classes_flatMap_bare {α : Type} (atlas : Atlas) (part : ClassEntry → List α)
    (hpart : ∀ entry, part entry.bare = part entry) :
    atlas.bare.classes.flatMap part = atlas.classes.flatMap part := by
  simp only [classes_eq_placedClasses, bare, placedClasses_mapClasses, List.flatMap_map, hpart]

theorem links_bare (atlas : Atlas) : atlas.bare.links = atlas.links := by
  simp only [links, methodTable_bare, atlas.classes_flatMap_bare (·.usages) fun _ => rfl]

theorem linkParents_snd_bare (atlas : Atlas) : atlas.bare.linkParents.2 = atlas.linkParents.2 := by
  simp only [linkParents, knownParents, classTable_bare,
    atlas.classes_flatMap_bare (·.parents) fun _ => rfl]

end Atlas

end ClassAtlas
