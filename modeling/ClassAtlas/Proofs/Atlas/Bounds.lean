import ClassAtlas.Proofs.Atlas.Agreement
import ClassAtlas.Proofs.Atlas.Link

namespace ClassAtlas

-- A table has one entry for each name that it knows.
theorem Table.size_eq_encard {α : Type} (table : Table α) :
    (table.size : ℕ∞) = {name : String | (table[name]?).isSome}.encard := by
  have hnames : {name : String | (table[name]?).isSome} = (table.keys.toFinset : Set String) := by
    ext name
    simp only [Set.mem_ofPred_eq, Finset.mem_coe, List.mem_toFinset, Std.HashMap.mem_keys,
      Std.HashMap.mem_iff_isSome_getElem?]
  rw [hnames, Set.encard_coe_eq_coe_finsetCard,
    List.toFinset_card_of_nodup Std.HashMap.nodup_keys, Std.HashMap.length_keys]

namespace Atlas

variable (atlas : Atlas)

theorem classTable_size :
    (atlas.classTable.size : ℕ∞) = {name | ∃ place, atlas.Names place name}.encard := by
  simp only [Table.size_eq_encard, classTable_isSome_iff]

theorem methodTable_size :
    (atlas.methodTable.size : ℕ∞) = {key | ∃ place, atlas.Declares place key}.encard := by
  simp only [Table.size_eq_encard, methodTable_isSome_iff]

theorem classTable_eq_none_iff (name : String) :
    atlas.classTable[name]? = none ↔ ∀ place, ¬ atlas.Names place name := by
  rw [← not_exists, ← classTable_isSome_iff, Option.not_isSome_iff_eq_none]

theorem methodTable_eq_none_iff (key : String) :
    atlas.methodTable[key]? = none ↔ ∀ place, ¬ atlas.Declares place key := by
  rw [← not_exists, ← methodTable_isSome_iff, Option.not_isSome_iff_eq_none]

theorem class?_isSome_of_classTable {name : String} {place : ClassPlace}
    (hplace : atlas.classTable[name]? = some place) : (atlas.class? place).isSome := by
  obtain ⟨entry, hentry, -⟩ := atlas.indexed_classTable name place hplace
  rw [hentry]
  rfl

theorem method?_isSome_of_mem_links {link : MethodPlace × Usage} (hlink : link ∈ atlas.links) :
    (atlas.method? link.1).isSome := by
  obtain ⟨usage, -, htarget⟩ := List.mem_filterMap.mp hlink
  obtain ⟨place, hplace, rfl⟩ := Option.map_eq_some_iff.mp htarget
  obtain ⟨-, -, hlast⟩ := (atlas.target?_eq_some_iff usage place).mp hplace
  obtain ⟨method, hmethod⟩ := hlast.1.exists_method
  rw [hmethod]
  rfl

-- Linking with places that have to be there: where a place is used that lies outside of the
-- atlas, there is no result.
section Strict

def parentName? (table : Table ClassPlace) (parent : String) : Option String :=
  match table[parent]? with
  | some place => (atlas.class? place).map (·.name)
  | none => some parent

def linkParents? : Option (Atlas × Nat) := do
  let table := atlas.classTable
  let names ← atlas.files.mapM fun file =>
    file.classes.mapM fun entry => entry.parents.mapM (atlas.parentName? table)
  return (atlas.writeParents names, atlas.knownParents table)

def writeMethod? (place : MethodPlace) (change : MethodEntry → MethodEntry) : Option Atlas := do
  let file ← atlas.files[place.file]?
  let entry ← file.classes[place.index]?
  let method ← entry.methods[place.method]?
  let methods := entry.methods.set place.method (change method)
  let classes := file.classes.set place.index { entry with methods := methods }
  return ⟨atlas.files.set place.file { file with classes := classes }⟩

def writeLinks? (links : List (MethodPlace × Usage)) : Option Atlas :=
  links.foldlM (fun atlas link => atlas.writeMethod? link.1 (.addCaller link.2)) atlas

def linkCalls? : Option (Atlas × Nat) := do
  let linked ← atlas.writeLinks? atlas.links
  return (linked, atlas.links.length)

end Strict

theorem parentName?_classTable (parent : String) :
    atlas.parentName? atlas.classTable parent =
      some (atlas.parentName atlas.classTable parent) := by
  unfold parentName? parentName
  cases hplace : atlas.classTable[parent]? with
  | none => rfl
  | some place =>
      obtain ⟨entry, hentry⟩ :=
        Option.isSome_iff_exists.mp (atlas.class?_isSome_of_classTable hplace)
      simp [hentry]

theorem linkParents?_eq : atlas.linkParents? = some atlas.linkParents := by
  have hparents : atlas.parentName? atlas.classTable =
      fun parent => pure (atlas.parentName atlas.classTable parent) :=
    funext atlas.parentName?_classTable
  simp only [linkParents?, hparents, List.mapM_pure, pure_bind]
  rfl

-- A write succeeds just at the places of the atlas, and then changes the method there.
theorem writeMethod?_eq_some_iff (place : MethodPlace) (change : MethodEntry → MethodEntry)
    (written : Atlas) :
    atlas.writeMethod? place change = some written ↔
      (atlas.method? place).isSome ∧ atlas.modifyMethod place change = written := by
  simp only [writeMethod?, modifyMethod, method?, class?, List.modify_eq_set_getElem?]
  cases atlas.files[place.file]? with
  | none => simp
  | some file =>
      cases hentry : file.classes[place.index]? with
      | none => simp [hentry]
      | some entry => cases hmethod : entry.methods[place.method]? <;> simp [hentry, hmethod]

-- Adding callers moves nothing: the places of an atlas stay its places, after one link and after
-- any number of them.
theorem method?_isSome_modifyMethod (place other : MethodPlace)
    (change : MethodEntry → MethodEntry) :
    ((atlas.modifyMethod place change).method? other).isSome = (atlas.method? other).isSome := by
  rw [modifyMethod_eq_mapMethods, method?_mapMethods, Option.isSome_map]

-- The atlas after some of the links have been added.
def addLinks (links : List (MethodPlace × Usage)) : Atlas :=
  links.foldl (fun atlas link => atlas.modifyMethod link.1 (.addCaller link.2)) atlas

theorem method?_isSome_addLinks (links : List (MethodPlace × Usage)) (place : MethodPlace) :
    ((atlas.addLinks links).method? place).isSome = (atlas.method? place).isSome := by
  induction links generalizing atlas with
  | nil => rfl
  | cons link rest ih =>
      change (((atlas.modifyMethod link.1 _).addLinks rest).method? place).isSome = _
      rw [ih, method?_isSome_modifyMethod]

theorem writeLinks?_eq {links : List (MethodPlace × Usage)}
    (hlinks : ∀ link ∈ links, (atlas.method? link.1).isSome) :
    atlas.writeLinks? links = some (atlas.addLinks links) := by
  induction links generalizing atlas with
  | nil => rfl
  | cons link rest ih =>
      obtain ⟨hlink, hrest⟩ := List.forall_mem_cons.mp hlinks
      have hnext := ih (atlas.modifyMethod link.1 (.addCaller link.2)) fun other hother => by
        rw [method?_isSome_modifyMethod]
        exact hrest other hother
      have hwrite := (atlas.writeMethod?_eq_some_iff link.1 (.addCaller link.2) _).mpr ⟨hlink, rfl⟩
      rw [writeLinks?, List.foldlM_cons, hwrite]
      exact hnext

theorem linkCalls?_eq : atlas.linkCalls? = some atlas.linkCalls := by
  rw [linkCalls?, atlas.writeLinks?_eq fun link hlink => atlas.method?_isSome_of_mem_links hlink]
  rfl

-- The tables know exactly the names that are declared and lead each one to the last place that
-- declares it, so that linking uses no place outside the atlas: neither when it reads the name of
-- a parent, nor when it adds a caller, whatever has been added before. With places that have to be
-- there, linking comes to the same results.
theorem tables_lead_into_atlas (atlas : Atlas) :
    (∀ name place, atlas.classTable[name]? = some place ↔ atlas.NamesLast place name) ∧
      (∀ name, atlas.classTable[name]? = none ↔ ∀ place, ¬ atlas.Names place name) ∧
      (atlas.classTable.size : ℕ∞) = {name | ∃ place, atlas.Names place name}.encard ∧
      (∀ owner method place, atlas.methodTable.method? owner method = some place ↔
        atlas.DeclaresLast place (owner ++ "." ++ method)) ∧
      (∀ owner method, atlas.methodTable.method? owner method = none ↔
        ∀ place, ¬ atlas.Declares place (owner ++ "." ++ method)) ∧
      (atlas.methodTable.size : ℕ∞) = {key | ∃ place, atlas.Declares place key}.encard ∧
      (∀ (name : String) (place : ClassPlace), atlas.classTable[name]? = some place →
        (atlas.class? place).isSome) ∧
      (∀ done link rest, atlas.links = done ++ link :: rest →
        ((atlas.addLinks done).method? link.1).isSome) ∧
      atlas.linkParents? = some atlas.linkParents ∧
      atlas.linkCalls? = some atlas.linkCalls := by
  refine ⟨fun name place => atlas.classTable_eq_some_iff place name, atlas.classTable_eq_none_iff,
    atlas.classTable_size, fun owner method place => atlas.methodTable_eq_some_iff place _,
    fun owner method => atlas.methodTable_eq_none_iff _, atlas.methodTable_size,
    fun name place => atlas.class?_isSome_of_classTable, ?_, atlas.linkParents?_eq,
    atlas.linkCalls?_eq⟩
  intro done link rest hlinks
  rw [method?_isSome_addLinks]
  exact atlas.method?_isSome_of_mem_links (by simp [hlinks])

-- A file without classes, and two classes of one name. The first one declares a method twice and
-- calls it twice, and the last one has no methods.
def emptyFile : Atlas :=
  ⟨[⟨"a.ts", []⟩,
    ⟨"b.ts", [⟨"A", ["Outside", "A"], none, [⟨"m", none⟩, ⟨"m", some []⟩],
      [⟨"A", "m", "A"⟩, ⟨"A", "m", "A"⟩]⟩]⟩,
    ⟨"c.ts", [⟨"A", [], none, [], []⟩]⟩]⟩

theorem emptyFile_tables_lead_into_atlas :
    emptyFile.classTable[("A" : String)]? = some ⟨2, 0⟩ ∧
      (emptyFile.class? ⟨2, 0⟩).isSome ∧
      emptyFile.methodTable.method? "A" "m" = some ⟨1, 0, 1⟩ ∧
      (∃ done link rest, emptyFile.links = done ++ link :: rest ∧ done ≠ [] ∧
        ((emptyFile.addLinks done).method? link.1).isSome) ∧
      emptyFile.linkCalls?.map (·.2) = some 2 := by
  obtain ⟨hclass, -, -, -, -, -, hread, hwrite, -, hstrict⟩ :=
    tables_lead_into_atlas emptyFile
  have hplace : emptyFile.classTable[("A" : String)]? = some ⟨2, 0⟩ := by
    refine (hclass _ _).mpr ⟨⟨_, rfl, rfl⟩, ?_⟩
    rintro other ⟨entry, hentry, -⟩
    have hall : ∀ placed ∈ emptyFile.placedClasses, placed.1 = ⟨2, 0⟩ ∨ placed.1.Before ⟨2, 0⟩ := by
      simp [emptyFile, placedClasses, ClassPlace.Before]
    exact hall _ (mem_placedClasses.mpr hentry)
  have hplace' : emptyFile.methodTable.method? "A" "m" = some ⟨1, 0, 1⟩ := by
    rw [method?_methodTable]
    decide
  have hlinks : emptyFile.links =
      [(⟨1, 0, 1⟩, ⟨"A", "m", "A"⟩), (⟨1, 0, 1⟩, ⟨"A", "m", "A"⟩)] := by
    have hclasses : emptyFile.classes.flatMap (·.usages) =
        [⟨"A", "m", "A"⟩, ⟨"A", "m", "A"⟩] := rfl
    simp [links, hclasses, target?, hplace']
  refine ⟨hplace, hread _ _ hplace, hplace', ⟨_, _, _, hlinks, List.cons_ne_nil _ [], ?_⟩, ?_⟩
  · exact hwrite _ _ _ hlinks
  · rw [hstrict, Option.map_some, linkCalls, hlinks]
    rfl

end Atlas

end ClassAtlas
