import Mathlib.Data.Set.Card
import ClassAtlas.Proofs.Atlas.Bare
import ClassAtlas.Proofs.Atlas.Table

namespace ClassAtlas

-- A class that is linked with just the parents that it declares.
def ClassEntry.linkDeclared (entry : ClassEntry) : ClassEntry :=
  { entry with linked := some entry.parents }

namespace Atlas

-- A table that leads every name it knows to a class of that name.
def Indexed (atlas : Atlas) (table : Table ClassPlace) : Prop :=
  ∀ name place, table[name]? = some place → atlas.Names place name

theorem indexed_classTable (atlas : Atlas) : atlas.Indexed atlas.classTable :=
  fun name place hplace => ((atlas.classTable_eq_some_iff place name).mp hplace).1

-- Reading the name back at the place that a table gives yields the name that was looked up.
-- To which of several classes of a name the table leads does not show.
theorem parentName_of_indexed {atlas : Atlas} {table : Table ClassPlace}
    (htable : atlas.Indexed table) (parent : String) : atlas.parentName table parent = parent := by
  unfold parentName
  cases hplace : table[parent]? with
  | none => rfl
  | some place =>
      obtain ⟨entry, hentry, hname⟩ := htable parent place hplace
      rw [Option.bind_some, hentry]
      exact hname

-- Values that were made from the items, in order, come back to the items that they were made from.
theorem writeBack_map {α β : Type} (write : α → β → α) (value : α → β) (items : List α) :
    writeBack write items (items.map value) = items.map fun item => write item (value item) := by
  induction items with
  | nil => rfl
  | cons item rest ih => rw [List.map_cons, writeBack, ih, List.map_cons]

theorem writeParents_parentNames (atlas : Atlas) (table : Table ClassPlace) :
    atlas.writeParents (atlas.parentNames table) = atlas.mapClasses fun _ entry =>
      { entry with linked := some (entry.parents.map (atlas.parentName table)) } := by
  simp only [writeParents, parentNames, writeBack_map, mapClasses, Lists.mapIdx_const]

theorem linkParents_fst (atlas : Atlas) :
    atlas.linkParents.1 = atlas.mapClasses fun _ entry => entry.linkDeclared := by
  have hparents (parents : List String) :
      parents.map (atlas.parentName atlas.classTable) = parents :=
    (List.map_congr_left fun parent _ =>
      parentName_of_indexed atlas.indexed_classTable parent).trans (List.map_id parents)
  simp only [linkParents, writeParents_parentNames, hparents, ClassEntry.linkDeclared]

-- A slot is a position among the parents of a class.
abbrev ParentSlot := ClassPlace × Nat

def parentAt? (atlas : Atlas) (slot : ParentSlot) : Option String :=
  (atlas.class? slot.1).bind fun entry => entry.parents[slot.2]?

def placedParents (atlas : Atlas) : List (ParentSlot × String) :=
  atlas.placedClasses.flatMap fun (place, entry) =>
    entry.parents.zipIdx.map fun (parent, k) => ((place, k), parent)

theorem mem_placedParents {atlas : Atlas} {slot : ParentSlot} {parent : String} :
    (slot, parent) ∈ atlas.placedParents ↔ atlas.parentAt? slot = some parent := by
  simp only [placedParents, List.mem_flatMap, List.mem_map, Prod.mk.injEq, Prod.exists,
    List.mem_zipIdx_iff_getElem?, mem_placedClasses, parentAt?, Option.bind_eq_some_iff]
  constructor
  · rintro ⟨place, entry, hentry, _, k, hparent, rfl, rfl⟩
    exact ⟨entry, hentry, hparent⟩
  · rintro ⟨entry, hentry, hparent⟩
    exact ⟨slot.1, entry, hentry, parent, slot.2, hparent, rfl, rfl⟩

theorem placedParents_map_snd (atlas : Atlas) :
    atlas.placedParents.map (·.2) = atlas.classes.flatMap (·.parents) := by
  have hclass (place : ClassPlace) (entry : ClassEntry) :
      (entry.parents.zipIdx.map fun (parent, k) => ((place, k), parent)).map (·.2) =
        entry.parents := by
    simp only [List.map_map, Function.comp_def]
    exact List.zipIdx_map_fst 0 entry.parents
  simp only [placedParents, List.map_flatMap, hclass, classes_eq_placedClasses, List.flatMap_map]

theorem placedParents_slots_nodup (atlas : Atlas) : (atlas.placedParents.map (·.1)).Nodup := by
  refine List.pairwise_map.mpr (List.pairwise_flatMap.mpr ⟨?_, ?_⟩)
  · intro entry _
    refine List.pairwise_map.mpr ((Lists.zipIdx_pairwise _).imp ?_)
    intro a b hlt heq
    exact Nat.ne_of_lt hlt (Prod.mk.inj heq).2
  · refine atlas.placedClasses_pairwise.imp ?_
    intro a b hbefore x hx y hy heq
    obtain ⟨_, _, rfl⟩ := List.mem_map.mp hx
    obtain ⟨_, _, rfl⟩ := List.mem_map.mp hy
    have hplace : a.1 = b.1 := (Prod.mk.inj heq).1
    rw [hplace] at hbefore
    exact hbefore.asymm hbefore

-- The slots whose parent is a class of the atlas.
def knownSlots (atlas : Atlas) : Set ParentSlot :=
  {slot | ∃ parent place, atlas.parentAt? slot = some parent ∧ atlas.Names place parent}

theorem linkParents_snd (atlas : Atlas) : (atlas.linkParents.2 : ℕ∞) = atlas.knownSlots.encard := by
  let known := atlas.placedParents.filter fun entry => (atlas.classTable[entry.2]?).isSome
  have hset : atlas.knownSlots = ((known.map (·.1)).toFinset : Set ParentSlot) := by
    ext slot
    simp only [knownSlots, Set.mem_ofPred_eq, Finset.mem_coe, List.mem_toFinset, List.mem_map,
      known, List.mem_filter, Prod.exists, exists_and_right, exists_eq_right, mem_placedParents,
      classTable_isSome_iff, exists_and_left]
  have hnodup : (known.map (·.1)).Nodup :=
    atlas.placedParents_slots_nodup.sublist (List.filter_sublist.map _)
  rw [hset, Set.encard_coe_eq_coe_finsetCard, List.toFinset_card_of_nodup hnodup,
    List.length_map, Nat.cast_inj]
  change (atlas.classes.flatMap (·.parents)).countP _ = _
  rw [← placedParents_map_snd, List.countP_map, List.countP_eq_length_filter]
  rfl

theorem exists_names_iff (atlas : Atlas) (name : String) :
    (∃ place, atlas.Names place name) ↔ name ∈ atlas.classes.map (·.name) := by
  simp only [Names, classes_eq_placedClasses, List.map_map, List.mem_map, Prod.exists,
    mem_placedClasses, Function.comp_apply]

theorem linkParents_snd_eq_countP (atlas : Atlas) :
    atlas.linkParents.2 =
      (atlas.classes.flatMap (·.parents)).countP (· ∈ atlas.classes.map (·.name)) := by
  change (atlas.classes.flatMap (·.parents)).countP _ = _
  refine List.countP_congr fun parent _ => ?_
  rw [classTable_isSome_iff, exists_names_iff, decide_eq_true_iff]

-- An atlas without its linked parents. Two atlases that agree so far differ in nothing else.
def unlinked (atlas : Atlas) : Atlas :=
  atlas.mapClasses fun _ entry => { entry with linked := none }

theorem linkParents_eq_of_unlinked {atlas other : Atlas} (h : atlas.unlinked = other.unlinked) :
    atlas.linkParents = other.linkParents := by
  have hfst (atlas : Atlas) : atlas.linkParents.1 = atlas.unlinked.linkParents.1 := by
    simp only [linkParents_fst, unlinked, mapClasses_mapClasses, ClassEntry.linkDeclared]
  have hsnd (atlas : Atlas) : atlas.linkParents.2 = atlas.unlinked.linkParents.2 := by
    have hbare : atlas.unlinked.bare = atlas.bare := atlas.bare_mapClasses fun _ _ => rfl
    rw [← atlas.linkParents_snd_bare, ← atlas.unlinked.linkParents_snd_bare, hbare]
  apply Prod.ext
  · rw [hfst, h, ← hfst]
  · rw [hsnd, h, ← hsnd]

-- Linking sets the parents of every class to those that it declares and changes nothing else.
-- The table only leads to classes of the name that is looked up, and any other table that
-- does so would link the same parents. The count is the number of slots whose parent is a
-- class of the atlas, and earlier links have no effect.
theorem linkParents_spec (atlas : Atlas) :
    atlas.linkParents.1 =
        atlas.mapClasses (fun _ entry => { entry with linked := some entry.parents }) ∧
      (atlas.linkParents.2 : ℕ∞) = atlas.knownSlots.encard ∧
      (atlas.Indexed atlas.classTable ∧
        ∀ table, atlas.Indexed table → ∀ entry ∈ atlas.classes,
          entry.parents.map (atlas.parentName table) = entry.parents) ∧
      ∀ other : Atlas, other.unlinked = atlas.unlinked → other.linkParents = atlas.linkParents := by
  refine ⟨atlas.linkParents_fst, atlas.linkParents_snd, ⟨atlas.indexed_classTable, ?_⟩,
    fun other h => linkParents_eq_of_unlinked h⟩
  intro table htable entry _
  exact (List.map_congr_left fun parent _ => parentName_of_indexed htable parent).trans
    (List.map_id entry.parents)

-- Two classes of one name. The first one was linked before, to a parent that it does not
-- declare, and the second one names itself or the first one.
def sharedName : Atlas :=
  ⟨[⟨"a.ts", [⟨"Shared", [], some ["Old"], [], []⟩]⟩,
    ⟨"b.ts", [⟨"Shared", ["Outside", "Shared"], none, [], []⟩]⟩]⟩

theorem sharedName_linkParents :
    sharedName.linkParents.1 =
        ⟨[⟨"a.ts", [⟨"Shared", [], some [], [], []⟩]⟩,
          ⟨"b.ts", [⟨"Shared", ["Outside", "Shared"], some ["Outside", "Shared"], [], []⟩]⟩]⟩ ∧
      sharedName ≠ sharedName.unlinked ∧
      sharedName.unlinked.linkParents = sharedName.linkParents := by
  obtain ⟨hlinked, -, -, hearlier⟩ := linkParents_spec sharedName
  exact ⟨hlinked.trans rfl, by decide, hearlier _ rfl⟩

end Atlas

end ClassAtlas
