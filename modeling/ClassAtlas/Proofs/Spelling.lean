import ClassAtlas.Proofs.Atlas.Parents
import ClassAtlas.Proofs.Declaration.Listing
import ClassAtlas.Proofs.Naming

namespace ClassAtlas

open Catalog Pattern
open Text (DottedName)

theorem Step.mem_fits_pattern {step : Step} {inner : Pattern} (hinner : inner.isOptional = false)
    {top : Node} {captures : List Capture} :
    captures ∈ fits (step.pattern inner) top ↔
      top.IsKind step.kind ∧ ∃ child ∈ top.children,
        (∀ name ∈ step.field, child.field = some name) ∧ captures ∈ fits inner child := by
  rw [pattern, Catalog.kind, mem_fits_kind,
    mem_fitsAmong_single (step.isOptional_childPattern hinner)]
  simp only [fits_childPattern, List.mem_ite_nil_right, allows_iff]

-- Clauses of one sort: the way from a class down to them, and their kind.
structure ClauseForm where
  step : Step
  kind : String

namespace ClauseForm

def pattern (form : ClauseForm) : Pattern :=
  form.step.pattern (capture "class.heritage" (ofKind form.kind))

def Stands (form : ClauseForm) (node clause : Node) : Prop :=
  node.IsKind form.step.kind ∧ clause ∈ node.children ∧
    (∀ name ∈ form.step.field, clause.field = some name) ∧ clause.IsKind form.kind

theorem mem_fits_pattern {form : ClauseForm} {node : Node} {captures : List Capture} :
    captures ∈ fits form.pattern node ↔
      ∃ clause, form.Stands node clause ∧ captures = [("class.heritage", clause)] := by
  rw [pattern, Step.mem_fits_pattern rfl]
  simp only [mem_fits_capture, mem_fits_ofKind]
  constructor
  · rintro ⟨hnode, clause, hclause, hfield, _, ⟨hkind, rfl⟩, rfl⟩
    exact ⟨clause, ⟨hnode, hclause, hfield, hkind⟩, rfl⟩
  · rintro ⟨clause, ⟨hnode, hclause, hfield, hkind⟩, rfl⟩
    exact ⟨hnode, clause, hclause, hfield, _, ⟨hkind, rfl⟩, rfl⟩

end ClauseForm

namespace Language

def clauseForms : Language → List ClauseForm
  | typescript | tsx => [
      ⟨⟨"class_declaration", none⟩, "class_heritage"⟩,
      ⟨⟨"abstract_class_declaration", none⟩, "class_heritage"⟩,
      ⟨⟨"interface_declaration", none⟩, "extends_type_clause"⟩]
  | javascript => [⟨⟨"class_declaration", none⟩, "class_heritage"⟩]
  | csharp =>
      ["class_declaration", "interface_declaration", "struct_declaration",
        "record_declaration"].map fun kind => ⟨⟨kind, none⟩, "base_list"⟩
  | java => [
      ⟨⟨"class_declaration", none⟩, "superclass"⟩,
      ⟨⟨"class_declaration", none⟩, "super_interfaces"⟩,
      ⟨⟨"interface_declaration", none⟩, "extends_interfaces"⟩,
      ⟨⟨"enum_declaration", none⟩, "super_interfaces"⟩,
      ⟨⟨"record_declaration", none⟩, "super_interfaces"⟩]
  | python => [⟨⟨"class_definition", some "superclasses"⟩, "argument_list"⟩]

-- A clause of a class in which parents are named.
def ClauseOf (language : Language) (node clause : Node) : Prop :=
  ∃ form ∈ language.clauseForms, form.Stands node clause

theorem query_heritage (language : Language) :
    language.query .heritage = language.clauseForms.map fun form => rule form.pattern := by
  cases language <;> rfl

theorem captures_of_heritage_match {language : Language} {document : Document} {node : Node}
    {found : Match} (hfound : found ∈ (language.query .heritage).matchesAt document node) :
    ∃ clause, language.ClauseOf node clause ∧ found.captures = [("class.heritage", clause)] := by
  obtain ⟨matched, hrule, hfits, -⟩ := Query.mem_matchesAt.mp hfound
  rw [query_heritage] at hrule
  obtain ⟨form, hform, rfl⟩ := List.mem_map.mp (List.mem_of_getElem? hrule)
  obtain ⟨clause, hstands, hcaptures⟩ := ClauseForm.mem_fits_pattern.mp hfits
  exact ⟨clause, ⟨form, hform, hstands⟩, hcaptures⟩

theorem exists_heritage_match {language : Language} {node clause : Node}
    (hclause : language.ClauseOf node clause) (document : Document) :
    ∃ found ∈ (language.query .heritage).matchesAt document node,
      found.captures = [("class.heritage", clause)] := by
  obtain ⟨form, hform, hstands⟩ := hclause
  obtain ⟨index, hindex⟩ := List.getElem?_of_mem hform
  refine ⟨⟨index, [("class.heritage", clause)]⟩, ?_, rfl⟩
  apply Query.mem_matchesAt.mpr
  refine ⟨rule form.pattern, ?_, ClauseForm.mem_fits_pattern.mpr ⟨clause, hstands, rfl⟩, rfl⟩
  rw [query_heritage, List.getElem?_map, hindex]
  rfl

end Language

-- The parents of a clause, and where it stands.
def Heritage.ofClause (document : Document) (clause : Node) : Heritage where
  parents := parentNames document clause
  superclass := superclass? document clause
  offset := clause.start

theorem Heritage.ofMatch_clause {document : Document} {found : Match} {clause : Node}
    (hcaptures : found.captures = [("class.heritage", clause)]) :
    ofMatch document found = ofClause document clause := by
  simp [ofMatch, ofClause, Match.all, Match.first?, hcaptures]

theorem DeclForm.exists_match_of_declared {forms : List DeclForm} {document : Document}
    {place : Path} {node name : Node} (whole part : String)
    (hdeclared : Declared forms document.root place node name) :
    ∃ found ∈ (query whole part forms).run document,
      found.captures = [(whole, node), (part, name)] := by
  obtain ⟨form, hform, above, way, rfl, ⟨root, hroot, hleads, hkind⟩, hnames⟩ := hdeclared
  obtain ⟨index, hindex⟩ := List.getElem?_of_mem hform
  have hshown : (way, ⟨index, [(whole, node), (part, name)]⟩) ∈ shownBelow whole part forms root :=
    mem_shownBelow.mpr ⟨form, node, name, hindex, hleads, hkind, hnames, rfl⟩
  have hfound := List.mem_map_of_mem (f := Prod.snd) hshown
  rw [@shownBelow_map_snd whole part forms document] at hfound
  exact ⟨_, Query.mem_run.mpr ⟨above, root, hroot, hfound⟩, rfl⟩

namespace Facts

variable {language : Language} {document : Document}

-- The clauses that are found are just those of the tree.
theorem mem_heritage_iff {heritage : Heritage} :
    heritage ∈ (gather (.builtIn language) document).heritage ↔
      ∃ place node clause, document.root.at? place = some node ∧ language.ClauseOf node clause ∧
        heritage = .ofClause document clause := by
  change heritage ∈ ((language.query .heritage).run document).map (Heritage.ofMatch document) ↔ _
  simp only [List.mem_map, Query.mem_run]
  constructor
  · rintro ⟨found, ⟨place, node, hnode, hfound⟩, rfl⟩
    obtain ⟨clause, hclause, hcaptures⟩ := Language.captures_of_heritage_match hfound
    exact ⟨place, node, clause, hnode, hclause, Heritage.ofMatch_clause hcaptures⟩
  · rintro ⟨place, node, clause, hnode, hclause, rfl⟩
    obtain ⟨found, hfound, hcaptures⟩ := Language.exists_heritage_match hclause document
    exact ⟨found, ⟨place, node, hnode, hfound⟩, Heritage.ofMatch_clause hcaptures⟩

-- The name of a class is taken from the text as it is.
theorem exists_decl_of_classAt {place : Path} {node name : Node}
    (hclass : language.ClassAt document place node name) :
    ∃ decl ∈ (gather (.builtIn language) document).classes, decl.name = document.text name := by
  change ∃ decl ∈ ((language.query .classes).run document).map (ClassDecl.ofMatch document), _
  rw [language.query_classes_eq_forms]
  obtain ⟨found, hfound, hcaptures⟩ :=
    DeclForm.exists_match_of_declared "class.definition" "class.name" hclass
  refine ⟨_, List.mem_map_of_mem hfound, ?_⟩
  simp [ClassDecl.ofMatch, Match.text, Match.first?, hcaptures]

-- A parent is listed under the very text of its node just if that text is a dotted name.
theorem text_mem_parents_iff {place : Path} {node clause parent : Node} {owner : Nat}
    (hnode : document.root.at? place = some node) (hclause : language.ClauseOf node clause)
    (hparent : Heritage.Entry clause parent)
    (howner : (gather (.builtIn language) document).owner? clause.start = some owner)
    (decl : ClassDecl) :
    document.text parent ∈
        ((gather (.builtIn language) document).entryOf language owner decl).parents ↔
      DottedName (document.text parent) := by
  constructor
  · exact (wellNamed_gather _ document).parents language owner decl
  · intro hname
    have hheritage := mem_heritage_iff.mpr ⟨place, node, clause, hnode, hclause, rfl⟩
    refine List.mem_flatMap.mpr ⟨_, List.mem_filter.mpr ⟨hheritage, decide_eq_true howner⟩, ?_⟩
    apply (Heritage.mem_parentNames_iff document).mpr
    refine ⟨parent, hparent, (Heritage.mem_typeNames_iff document).mpr ?_⟩
    exact ⟨hname.typeName_eq.symm, hname.ne_empty⟩

theorem text_mem_bindings_iff {found : Match}
    (hfound : found ∈ (RuleBook.builtIn language).hits .declarations document) {name : String}
    {offset : Nat} {type : Node} (hwrites : Binding.Writes document found name offset type) :
    ⟨name, document.text type, offset⟩ ∈ (gather (.builtIn language) document).bindings ↔
      name ≠ "" ∧ DottedName (document.text type) := by
  constructor
  · intro hbinding
    have hnamed := (wellNamed_gather _ document).bindings _ hbinding
    exact ⟨hnamed.name, hnamed.type⟩
  · rintro ⟨hname, htype⟩
    rw [gather_eq]
    refine List.mem_flatMap.mpr ⟨found, hfound, Binding.mem_ofMatch_iff.mpr ?_⟩
    refine ⟨name, offset, type, hwrites, Binding.make?_eq_some_iff.mpr ⟨hname, ?_⟩⟩
    rw [htype.typeName_eq]
    exact ⟨htype.ne_empty, rfl⟩

end Facts

-- A class counts a parent of some name as one of the classes of the atlas.
def Atlas.CountsParent (atlas : Atlas) (place : ClassPlace) (name : String) : Prop :=
  ∃ slot ∈ atlas.knownSlots, slot.1 = place ∧ atlas.parentAt? slot = some name

theorem Atlas.countsParent_iff {atlas : Atlas} {place : ClassPlace} {entry : ClassEntry}
    {name : String} (hentry : atlas.class? place = some entry)
    (hname : name ∈ atlas.classes.map (·.name)) :
    atlas.CountsParent place name ↔ name ∈ entry.parents := by
  constructor
  · rintro ⟨slot, -, rfl, hparent⟩
    rw [parentAt?, hentry] at hparent
    exact List.mem_of_getElem? hparent
  · intro hparent
    obtain ⟨k, hk⟩ := List.getElem?_of_mem hparent
    have hslot : atlas.parentAt? (place, k) = some name := by
      rw [parentAt?, hentry]
      exact hk
    obtain ⟨other, hother⟩ := (atlas.exists_names_iff name).mpr hname
    exact ⟨(place, k), ⟨name, other, hslot, hother⟩, rfl, hslot⟩

-- Classes are named by the text of a node as it is. A parent and a declared type are named so,
-- too, just if the text is a dotted name, and then a parent of the name of a class is counted.
theorem references_spelled_as_written_iff (language : Language) (path : String)
    (document : Document) :
    let facts := Facts.gather (.builtIn language) document
    let file := (Extraction.ofDocument language (.builtIn language) path document).entry
    (∀ place node name, language.ClassAt document place node name →
        document.text name ∈ file.classes.map (·.name)) ∧
      (∀ place node clause parent owner, document.root.at? place = some node →
        language.ClauseOf node clause → Heritage.Entry clause parent →
        facts.owner? clause.start = some owner →
          ∃ entry, file.classes[owner]? = some entry ∧
            (document.text parent ∈ entry.parents ↔ DottedName (document.text parent)) ∧
            ∀ (atlas : Atlas) (position : Nat), atlas.files[position]? = some file →
              document.text parent ∈ atlas.classes.map (·.name) →
              (atlas.linkParents.2 : ℕ∞) = atlas.knownSlots.encard ∧
                (atlas.CountsParent ⟨position, owner⟩ (document.text parent) ↔
                  DottedName (document.text parent))) ∧
      ∀ found ∈ (RuleBook.builtIn language).hits .declarations document,
        ∀ name offset type, Binding.Writes document found name offset type →
          (⟨name, document.text type, offset⟩ ∈ facts.bindings ↔
            name ≠ "" ∧ DottedName (document.text type)) := by
  intro facts file
  have hlookup := facts.classEntries_getElem? language
  refine ⟨?_, ?_, ?_⟩
  · intro place node name hclass
    obtain ⟨decl, hdecl, hname⟩ := Facts.exists_decl_of_classAt hclass
    obtain ⟨owner, howner⟩ := List.getElem?_of_mem hdecl
    refine List.mem_map.mpr ⟨facts.entryOf language owner decl, ?_, hname⟩
    apply List.mem_of_getElem? (i := owner)
    exact (hlookup owner).trans (by rw [howner]; rfl)
  · intro place node clause parent owner hnode hclause hparent howner
    obtain ⟨decl, hdecl, -⟩ := Facts.exists_decl_of_owner? howner
    have hentry : file.classes[owner]? = some (facts.entryOf language owner decl) :=
      (hlookup owner).trans (by rw [hdecl]; rfl)
    have hlisted := Facts.text_mem_parents_iff hnode hclause hparent howner decl
    refine ⟨_, hentry, hlisted, ?_⟩
    intro atlas position hfile hname
    have hplace : atlas.class? ⟨position, owner⟩ = some (facts.entryOf language owner decl) := by
      rw [Atlas.class?, hfile]
      exact hentry
    exact ⟨atlas.linkParents_snd, (Atlas.countsParent_iff hplace hname).trans hlisted⟩
  · intro found hfound name offset type hwrites
    exact Facts.text_mem_bindings_iff hfound hwrites

-- A class with a name of five bytes, and a class `B` that extends it.
def baseName : Node := .branch "identifier" (some "name") 6 11 []

def baseClass : Node :=
  .branch "class_declaration" none 0 13 [
    .token "class" 0 5,
    baseName,
    .branch "class_body" (some "body") 11 13 [.token "\x7b" 11 12, .token "\x7d" 12 13]]

def heirParent : Node := .branch "identifier" none 29 34 []

def heirClause : Node :=
  .branch "class_heritage" none 21 34 [.token "extends" 21 28, heirParent]

def heirName : Node := .branch "identifier" (some "name") 19 20 []

def heirClass : Node :=
  .branch "class_declaration" none 13 36 [
    .token "class" 13 18,
    heirName,
    heirClause,
    .branch "class_body" (some "body") 34 36 [.token "\x7b" 34 35, .token "\x7d" 35 36]]

def heirDocument (source : String) : Document :=
  ⟨source, .branch "program" none 0 36 [baseClass, heirClass]⟩

theorem classAt_baseClass (source : String) :
    Language.javascript.ClassAt (heirDocument source) [0] baseClass baseName :=
  ⟨_, .head _, [0], [], rfl, ⟨baseClass, rfl, .here _, rfl, rfl⟩, ⟨.tail _ (.head _), rfl⟩, rfl,
    rfl⟩

theorem clauseOf_heirClass : Language.javascript.ClauseOf heirClass heirClause :=
  ⟨_, .head _, ⟨rfl, rfl⟩, .tail _ (.tail _ (.head _)), by decide, rfl, rfl⟩

theorem entry_heirClause : Heritage.Entry heirClause heirParent :=
  .here (List.mem_singleton_self heirParent) rfl rfl

theorem hits_heirDocument (source : String) :
    (RuleBook.builtIn .javascript).hits .classes (heirDocument source) =
      [⟨0, [("class.definition", baseClass), ("class.name", baseName)]⟩,
        ⟨0, [("class.definition", heirClass), ("class.name", heirName)]⟩] := by
  have hunsorted : (RuleBook.builtIn .javascript).unsorted .classes (heirDocument source) =
      [⟨0, [("class.definition", baseClass), ("class.name", baseName)]⟩,
        ⟨0, [("class.definition", heirClass), ("class.name", heirName)]⟩] := rfl
  rw [RuleBook.hits_of_sorted, hunsorted]
  rw [hunsorted]
  decide

theorem owner?_heirClause (source : String) :
    (Facts.gather (.builtIn .javascript) (heirDocument source)).owner? heirClause.start =
      some 1 := by
  rw [Facts.gather_eq, hits_heirDocument]
  rfl

theorem plainName_spelled_as_written :
    let document := heirDocument "class Latte\x7b\x7dclass B extends Latte\x7b\x7d"
    let file := (Extraction.ofDocument .javascript (.builtIn .javascript) "a.js" document).entry
    (∃ entry, file.classes[1]? = some entry ∧ "Latte" ∈ entry.parents) ∧
      Atlas.CountsParent ⟨[file]⟩ ⟨0, 1⟩ "Latte" := by
  intro document file
  obtain ⟨hnames, hparents, -⟩ := references_spelled_as_written_iff .javascript "a.js" document
  have hname : document.text baseName ∈ (⟨[file]⟩ : Atlas).classes.map (·.name) := by
    have hclass := hnames [0] baseClass baseName (classAt_baseClass _)
    simpa [Atlas.classes] using hclass
  obtain ⟨entry, hentry, hlisted, hcounted⟩ := hparents [1] heirClass heirClause heirParent 1 rfl
    clauseOf_heirClass entry_heirClause (owner?_heirClause _)
  have htext : document.text heirParent = "Latte" := by decide +kernel
  have hbase : document.text baseName = "Latte" := by decide +kernel
  have hdotted : DottedName "Latte" := by decide +kernel
  rw [hbase] at hname
  rw [htext] at hlisted hcounted
  exact ⟨⟨entry, hentry, hlisted.mpr hdotted⟩, (hcounted ⟨[file]⟩ 0 rfl hname).2.mpr hdotted⟩

theorem accentedName_parent_cut :
    let document := heirDocument "class Café\x7b\x7dclass B extends Café\x7b\x7d"
    let facts := Facts.gather (.builtIn .javascript) document
    let file := (Extraction.ofDocument .javascript (.builtIn .javascript) "a.js" document).entry
    Language.javascript.ClassAt document [0] baseClass baseName ∧
      Language.javascript.ClauseOf heirClass heirClause ∧ Heritage.Entry heirClause heirParent ∧
      facts.owner? heirClause.start = some 1 ∧
      document.text baseName = "Café" ∧ document.text heirParent = "Café" ∧
      file.classes = [⟨"Café", [], none, [], []⟩, ⟨"B", ["Caf"], none, [], []⟩] ∧
      (⟨[file]⟩ : Atlas).linkParents.2 = 0 := by
  intro document facts file
  have hclasses : file.classes =
      [⟨"Café", [], none, [], []⟩, ⟨"B", ["Caf"], none, [], []⟩] := by
    change (Facts.gather (.builtIn .javascript) document).classEntries _ = _
    rw [Facts.gather_eq, hits_heirDocument]
    decide +kernel
  have hcount : (⟨[file]⟩ : Atlas).linkParents.2 = 0 := by
    rw [Atlas.linkParents_snd_eq_countP]
    simp [Atlas.classes, hclasses]
  exact ⟨classAt_baseClass _, clauseOf_heirClass, entry_heirClause, owner?_heirClause _,
    by decide +kernel, by decide +kernel, hclasses, hcount⟩

end ClassAtlas
