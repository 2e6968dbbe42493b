import Mathlib.Data.List.Infix
import ClassAtlas.Extraction
import ClassAtlas.Proofs.Innermost
import ClassAtlas.Proofs.Query.Match

namespace ClassAtlas

namespace Language

-- A node that the query for classes takes for a class.
def ClassNode (language : Language) (document : Document) (node : Node) : Prop :=
  (language.query .classes).matchesAt document node ≠ []

instance (language : Language) (document : Document) (node : Node) :
    Decidable (language.ClassNode document node) :=
  inferInstanceAs (Decidable (_ ≠ []))

-- The kinds of nodes that declare classes, and the kind of the names that they give.
def classKinds : Language → List String
  | typescript | tsx => ["class_declaration", "abstract_class_declaration", "interface_declaration"]
  | javascript => ["class_declaration"]
  | csharp =>
      ["class_declaration", "interface_declaration", "struct_declaration", "record_declaration"]
  | java =>
      ["class_declaration", "interface_declaration", "enum_declaration", "record_declaration"]
  | python => ["class_definition"]

def classNameKind : Language → String
  | typescript | tsx => "type_identifier"
  | _ => "identifier"

theorem query_classes (language : Language) :
    language.query .classes =
      language.classKinds.map (Catalog.classRule language.classNameKind) := by
  cases language <;> rfl

theorem first?_class_definition {language : Language} {document : Document} {node : Node}
    {found : Match} (hfound : found ∈ (language.query .classes).matchesAt document node) :
    found.first? "class.definition" = some node := by
  obtain ⟨rule, hrule, hfits, -⟩ := Query.mem_matchesAt.mp hfound
  rw [query_classes] at hrule
  obtain ⟨kind, -, rfl⟩ := List.mem_map.mp (List.mem_of_getElem? hrule)
  rw [Catalog.classRule, Catalog.rule, Pattern.fits] at hfits
  obtain ⟨captures, -, hcaptures⟩ := List.mem_map.mp hfits
  simp [Match.first?, ← hcaptures]

end Language

namespace Facts

-- The spans of the classes that are found are those of the class nodes of the tree.
theorem mem_class_spans {language : Language} {document : Document} {span : Span} :
    span ∈ (gather (.builtIn language) document).classes.map (·.span) ↔
      ∃ path node, document.root.at? path = some node ∧ language.ClassNode document node ∧
        node.span = span := by
  change span ∈
    (((language.query .classes).run document).map (ClassDecl.ofMatch document)).map _ ↔ _
  simp only [List.map_map, List.mem_map, Query.mem_run, Function.comp_apply]
  constructor
  · rintro ⟨found, ⟨path, node, hnode, hfound⟩, rfl⟩
    refine ⟨path, node, hnode, List.ne_nil_of_mem hfound, ?_⟩
    simp [ClassDecl.ofMatch, Language.first?_class_definition hfound]
  · rintro ⟨path, node, hnode, hclass, rfl⟩
    obtain ⟨found, hfound⟩ := List.exists_mem_of_ne_nil _ hclass
    refine ⟨found, ⟨path, node, hnode, hfound⟩, ?_⟩
    simp [ClassDecl.ofMatch, Language.first?_class_definition hfound]

theorem exists_decl_of_owner? {facts : Facts} {offset owner : Nat}
    (howner : facts.owner? offset = some owner) :
    ∃ decl, facts.classes[owner]? = some decl ∧ decl.span.contains offset = true := by
  obtain ⟨⟨decl, hdecl, -, hcontains, -⟩, -⟩ := isLeast_of_owner? howner
  exact ⟨decl, hdecl, hcontains⟩

end Facts

-- The nearest class node above a place in the tree.
def Language.NearestClass (language : Language) (document : Document) (path : Path)
    (above : Node) : Prop :=
  ∃ outer, outer <+: path ∧ outer ≠ path ∧ document.root.at? outer = some above ∧
    language.ClassNode document above ∧
    ∀ between node, outer <+: between → outer ≠ between → between <+: path → between ≠ path →
      document.root.at? between = some node → ¬ language.ClassNode document node

theorem exists_nearestClass {language : Language} {document : Document} {path outer : Path}
    {above : Node} (houter : outer <+: path) (hne : outer ≠ path)
    (habove : document.root.at? outer = some above) (hclass : language.ClassNode document above) :
    ∃ nearest, language.NearestClass document path nearest := by
  by_cases hlast : ∀ between node, outer <+: between → outer ≠ between → between <+: path →
      between ≠ path → document.root.at? between = some node → ¬ language.ClassNode document node
  · exact ⟨above, outer, houter, hne, habove, hclass, hlast⟩
  · -- a class further down is nearer, and no way is longer than the path itself
    push Not at hlast
    obtain ⟨between, node, hlonger, hother, hbetween, hnotAll, hnode, hnodeClass⟩ := hlast
    have hlt : outer.length < between.length :=
      Nat.lt_of_le_of_ne hlonger.length_le fun h => hother (hlonger.eq_of_length h)
    have hle := hbetween.length_le
    exact exists_nearestClass hbetween hnotAll hnode hnodeClass
  termination_by path.length - outer.length

-- No class starts where a node starts, neither the node itself nor one inside it.
def Language.ClearStart (language : Language) (document : Document) (node : Node) : Prop :=
  ∀ below ∈ node.preorder, below.start = node.start → ¬ language.ClassNode document below

instance (language : Language) (document : Document) (node : Node) :
    Decidable (language.ClearStart document node) :=
  inferInstanceAs (Decidable (∀ below ∈ node.preorder, _))

section

variable {language : Language} {document : Document} {path : Path} {node : Node}
  (hwf : document.root.WellFormed) (hnode : document.root.at? path = some node)
  (hwidth : node.span.start < node.span.stop) (hclear : language.ClearStart document node)

include hwf hnode hwidth hclear

-- The class nodes around the start of the node are those above it.
theorem contains_start_iff_above {other : Path} {found : Node}
    (hfound : document.root.at? other = some found) (hclass : language.ClassNode document found) :
    found.span.contains node.start = true ↔ other <+: path ∧ other ≠ path := by
  rw [Span.contains_iff]
  change _ ≤ node.span.start ∧ node.span.start < _ ↔ _
  constructor
  · rintro ⟨hstart, hstop⟩
    have hbelow : ¬ path <+: other := by
      rintro ⟨rest, rfl⟩
      rw [Node.at?_append, hnode, Option.bind_some] at hfound
      have hinside := ((hwf.below hnode).inside hfound).1
      exact hclear found (Node.mem_preorder.mpr ⟨rest, hfound⟩)
        (Nat.le_antisymm hstart hinside) hclass
    refine ⟨?_, ?_⟩
    · by_contra hapart
      obtain hlt | rfl | hgt := lt_trichotomy other path
      · have hleft := hwf.stop_le_start hfound hnode hlt hapart
        omega
      · exact hapart (List.prefix_refl _)
      · have hright := hwf.stop_le_start hnode hfound hgt hbelow
        omega
    · rintro rfl
      exact hbelow (List.prefix_refl _)
  · rintro ⟨⟨rest, rfl⟩, -⟩
    rw [Node.at?_append, hfound, Option.bind_some] at hnode
    obtain ⟨hstart, hstop⟩ := (hwf.below hfound).inside hnode
    omega

theorem owner?_eq_none_iff_no_class_above :
    (Facts.gather (.builtIn language) document).owner? node.start = none ↔
      ∀ outer above, outer <+: path → outer ≠ path → document.root.at? outer = some above →
        ¬ language.ClassNode document above := by
  have haround {outer : Path} {above : Node} (habove : document.root.at? outer = some above)
      (hclass : language.ClassNode document above) :=
    contains_start_iff_above hwf hnode hwidth hclear habove hclass
  rw [Facts.owner?, Span.innermost?_eq_none_iff]
  constructor
  · intro hnone outer above houter hne habove hclass
    have hspan := Facts.mem_class_spans.mpr ⟨outer, above, habove, hclass, rfl⟩
    exact hnone _ hspan ((haround habove hclass).mpr ⟨houter, hne⟩)
  · intro hnone span hspan hin
    obtain ⟨outer, above, habove, hclass, rfl⟩ := Facts.mem_class_spans.mp hspan
    obtain ⟨houter, hne⟩ := (haround habove hclass).mp hin
    exact hnone outer above houter hne habove hclass

-- Two classes above the same node lie in one another. When no class lies between the node
-- and the first of them, the other one is the outer one.
theorem inside_of_nearest {above : Node} (hnearest : language.NearestClass document path above)
    {other : Path} {found : Node} (hfound : document.root.at? other = some found)
    (hclass : language.ClassNode document found)
    (hin : found.span.contains node.start = true) : above.span.Inside found.span := by
  obtain ⟨outer, houter, -, habove, -, hbetween⟩ := hnearest
  obtain ⟨hother, hne⟩ :=
    (contains_start_iff_above hwf hnode hwidth hclear hfound hclass).mp hin
  have hup : other <+: outer := by
    obtain hup | hdown := List.prefix_or_prefix_of_prefix hother houter
    · exact hup
    · by_cases hsame : outer = other
      · exact hsame ▸ List.prefix_refl outer
      · exact absurd hclass (hbetween other found hdown hsame hother hne hfound)
  obtain ⟨rest, rfl⟩ := hup
  rw [Node.at?_append, hfound, Option.bind_some] at habove
  exact (hwf.below hfound).inside habove

theorem owner?_span_of_nearest {above : Node}
    (hnearest : language.NearestClass document path above) :
    ∃ index decl, (Facts.gather (.builtIn language) document).owner? node.start = some index ∧
      (Facts.gather (.builtIn language) document).classes[index]? = some decl ∧
      decl.span = above.span := by
  obtain ⟨outer, houter, hne, habove, hclass, -⟩ := id hnearest
  have hin :=
    (contains_start_iff_above hwf hnode hwidth hclear habove hclass).mpr ⟨houter, hne⟩
  obtain ⟨index, hindex⟩ :
      ∃ index, (Facts.gather (.builtIn language) document).owner? node.start = some index := by
    rw [← Option.isSome_iff_exists, Option.isSome_iff_ne_none, Ne,
      owner?_eq_none_iff_no_class_above hwf hnode hwidth hclear]
    intro hnone
    exact hnone outer above houter hne habove hclass
  obtain ⟨span, hspan, hcontains, hshortest⟩ := Span.innermost?_spec hindex
  obtain ⟨other, found, hfound, hfoundClass, rfl⟩ :=
    Facts.mem_class_spans.mp (List.mem_of_getElem? hspan)
  have hinside :=
    inside_of_nearest hwf hnode hwidth hclear hnearest hfound hfoundClass hcontains
  have hle : found.span.length ≤ above.span.length := by
    obtain ⟨i, hi⟩ := List.mem_iff_getElem?.mp
      (Facts.mem_class_spans.mpr ⟨outer, above, habove, hclass, rfl⟩)
    have hfirst := hshortest i above.span hi hin
    omega
  have hsame : found.span = above.span :=
    hinside.eq_of_length_le (Span.start_lt_stop_of_contains hin) hle
  rw [List.getElem?_map, Option.map_eq_some_iff] at hspan
  obtain ⟨decl, hdecl, hdeclSpan⟩ := hspan
  exact ⟨index, decl, hindex, hdecl, hdeclSpan.trans hsame⟩

end

-- Whose class a node belongs to can be told from the tree: the start of the node has no owner
-- when no class lies above it, and otherwise an owner with the span of the nearest class.
theorem owner?_agrees_with_tree {language : Language} {document : Document} {path : Path}
    {node : Node} (hwf : document.root.WellFormed)
    (hnode : document.root.at? path = some node) (hwidth : node.span.start < node.span.stop)
    (hclear : language.ClearStart document node) :
    ((Facts.gather (.builtIn language) document).owner? node.start = none ↔
        ∀ outer above, outer <+: path → outer ≠ path → document.root.at? outer = some above →
          ¬ language.ClassNode document above) ∧
      ((Facts.gather (.builtIn language) document).owner? node.start ≠ none →
        ∃ above index decl, language.NearestClass document path above ∧
          (Facts.gather (.builtIn language) document).owner? node.start = some index ∧
          (Facts.gather (.builtIn language) document).classes[index]? = some decl ∧
          decl.span = above.span) := by
  have hnone := owner?_eq_none_iff_no_class_above hwf hnode hwidth hclear
  refine ⟨hnone, ?_⟩
  intro howner
  rw [Ne, hnone] at howner
  push Not at howner
  obtain ⟨outer, above, houter, hne, habove, hclass⟩ := howner
  obtain ⟨nearest, hnearest⟩ := exists_nearestClass houter hne habove hclass
  obtain ⟨index, decl, hspec⟩ := owner?_span_of_nearest hwf hnode hwidth hclear hnearest
  exact ⟨nearest, index, decl, hnearest, hspec⟩

-- `class A:`, `class B:` and `def m(): pass`, each one in the body of the one before.
def nestedMethod : Node :=
  .branch "function_definition" none 24 37 [
    .token "def" 24 27,
    .branch "identifier" (some "name") 28 29 [],
    .branch "parameters" (some "parameters") 29 31 [.token "(" 29 30, .token ")" 30 31],
    .token ":" 31 32,
    .branch "block" (some "body") 33 37 [
      .branch "pass_statement" none 33 37 [.token "pass" 33 37]]]

def nestedClass : Node :=
  .branch "class_definition" none 11 37 [
    .token "class" 11 16,
    .branch "identifier" (some "name") 17 18 [],
    .token ":" 18 19,
    .branch "block" (some "body") 24 37 [nestedMethod]]

def nestedClasses : Document where
  source := "class A:\n  class B:\n    def m(): pass\n"
  root := .branch "module" none 0 38 [
    .branch "class_definition" none 0 37 [
      .token "class" 0 5,
      .branch "identifier" (some "name") 6 7 [],
      .token ":" 7 8,
      .branch "block" (some "body") 11 37 [nestedClass]]]

theorem owner?_of_nested_method :
    nestedClasses.root.WellFormed ∧ Language.python.ClearStart nestedClasses nestedMethod ∧
      ∃ index decl, (Facts.gather (.builtIn .python) nestedClasses).owner? 24 = some index ∧
        (Facts.gather (.builtIn .python) nestedClasses).classes[index]? = some decl ∧
        decl.span = ⟨11, 37⟩ := by
  have hwf : nestedClasses.root.WellFormed := by decide
  have hclear : Language.python.ClearStart nestedClasses nestedMethod := by decide
  have hnode : nestedClasses.root.at? [0, 3, 0, 3, 0] = some nestedMethod := rfl
  obtain ⟨hnone, hsome⟩ := owner?_agrees_with_tree hwf hnode (by decide) hclear
  refine ⟨hwf, hclear, ?_⟩
  obtain ⟨above, index, decl, hnearest, howner, hdecl, hspan⟩ := hsome (by
    rw [Ne, hnone]
    intro hall
    exact hall [0, 3, 0] nestedClass (by decide) (by decide) rfl (by decide))
  refine ⟨index, decl, howner, hdecl, hspan.trans ?_⟩
  obtain ⟨outer, houter, hne, habove, hclass, hlast⟩ := hnearest
  have hmem : outer ∈ ([0, 3, 0, 3, 0] : Path).inits := (List.mem_inits _ _).mpr houter
  simp only [List.inits, List.map_cons, List.map_nil, List.mem_cons, List.not_mem_nil,
    or_false] at hmem
  -- only two of the nodes on the way are classes, and the outer one is not the nearest
  obtain rfl | rfl | rfl | rfl | rfl | rfl := hmem <;> obtain rfl := Option.some.inj habove
  · exact absurd hclass (by decide)
  · exact absurd (by decide) (hlast [0, 3, 0] nestedClass (by decide) (by decide) (by decide)
      (by decide) rfl)
  · exact absurd hclass (by decide)
  · rfl
  · exact absurd hclass (by decide)
  · exact absurd rfl hne

end ClassAtlas
