import ClassAtlas.Proofs.Lists
import ClassAtlas.Proofs.Tree.WellFormed
import ClassAtlas.Proofs.Written

namespace ClassAtlas

namespace Node

theorem child?_eq_some_iff {node child : Node} {field : String} :
    node.child? field = some child ↔
      Lists.First (fun other => other.field = some field) node.children child :=
  Lists.find?_eq_some_iff_first fun _ => by simp

theorem child?_eq_none_iff {node : Node} {field : String} :
    node.child? field = none ↔ ∀ child ∈ node.children, child.field ≠ some field := by
  simp [child?]

theorem firstNamed?_eq_some_iff {node child : Node} {kind : String} :
    node.firstNamed? kind = some child ↔
      Lists.First (fun other => other.kind = kind) node.namedChildren child :=
  Lists.find?_eq_some_iff_first fun _ => by simp

end Node

namespace Binding

open ClassAtlas.Lists (First)

-- The node that gives a declarator its name.
inductive NameOf (declarator : Node) : Node → Prop
  | field {name : Node}
      (hname : First (fun child => child.field = some "name") declarator.children name) :
      NameOf declarator name
  | identifier {name : Node}
      (hnone : ∀ child ∈ declarator.children, child.field ≠ some "name")
      (hname : First (fun child => child.kind = "identifier") declarator.namedChildren name) :
      NameOf declarator name

theorem boundName?_eq_some_iff {declarator name : Node} :
    boundName? declarator = some name ↔ NameOf declarator name := by
  rw [boundName?, Option.or_eq_some_iff, Node.child?_eq_some_iff, Node.child?_eq_none_iff,
    Node.firstNamed?_eq_some_iff]
  constructor
  · rintro (hfield | ⟨hnone, hidentifier⟩)
    · exact .field hfield
    · exact .identifier hnone hidentifier
  · rintro (hfield | ⟨hnone, hidentifier⟩)
    · exact Or.inl hfield
    · exact Or.inr ⟨hnone, hidentifier⟩

-- A child that is an object creation, or a clause around one.
inductive Holds (child : Node) : Node → Prop
  | itself (hkind : child.kind = "object_creation_expression") : Holds child child
  | clause {value : Node} (hkind : child.kind = "equals_value_clause")
      (hvalue : First (fun inner => inner.kind = "object_creation_expression") child.namedChildren
        value) : Holds child value

theorem Holds.kind_eq {child value : Node} (hholds : Holds child value) :
    value.kind = "object_creation_expression" := by
  cases hholds with
  | itself hkind => exact hkind
  | clause _ hvalue =>
      obtain ⟨_, _, _, hkind, _⟩ := hvalue
      exact hkind

-- The object creation that a declarator is initialized with.
inductive Creation (declarator : Node) : Node → Prop
  | field {value : Node}
      (hvalue : First (fun child => child.field = some "value") declarator.children value)
      (hkind : value.kind = "object_creation_expression") : Creation declarator value
  | child {child value : Node}
      (hnone : ∀ child ∈ declarator.children, child.field ≠ some "value")
      (hchild : First (fun child => ∃ value, Holds child value) declarator.namedChildren child)
      (hvalue : Holds child value) : Creation declarator value

theorem initialValue?_eq_some_iff {declarator value : Node} :
    (initialValue? declarator = some value ∧ value.kind = "object_creation_expression") ↔
      Creation declarator value := by
  have hholds (child value : Node) :
      (if child.kind = "object_creation_expression" then some child
        else if child.kind = "equals_value_clause" then
          child.firstNamed? "object_creation_expression"
        else none) = some value ↔ Holds child value := by
    constructor
    · intro hsome
      split at hsome
      · next hkind =>
        obtain rfl := Option.some.inj hsome
        exact .itself hkind
      · split at hsome
        · next hkind => exact .clause hkind (Node.firstNamed?_eq_some_iff.mp hsome)
        · cases hsome
    · rintro (hkind | ⟨hkind, hvalue⟩)
      · rw [if_pos hkind]
      · rw [hkind, if_neg (by decide), if_pos rfl]
        exact Node.firstNamed?_eq_some_iff.mpr hvalue
  rw [initialValue?, Option.or_eq_some_iff, Node.child?_eq_some_iff, Node.child?_eq_none_iff,
    Lists.findSome?_eq_some_iff_first hholds]
  constructor
  · rintro ⟨hfield | ⟨hnone, child, hchild, hvalue⟩, hkind⟩
    · exact .field hfield hkind
    · exact .child hnone hchild hvalue
  · rintro (⟨hfield, hkind⟩ | ⟨hnone, hchild, hvalue⟩)
    · exact ⟨Or.inl hfield, hkind⟩
    · exact ⟨Or.inr ⟨hnone, _, hchild, hvalue⟩, hvalue.kind_eq⟩

theorem createdNode?_eq_some_iff {declarator type : Node} :
    createdNode? declarator = some type ↔ ∃ value, Creation declarator value ∧
      First (fun child => child.field = some "type") value.children type := by
  rw [createdNode?, Option.bind_eq_some_iff]
  constructor
  · rintro ⟨value, hvalue, htype⟩
    split at htype
    · next hkind =>
      exact ⟨value, initialValue?_eq_some_iff.mp ⟨hvalue, hkind⟩,
        Node.child?_eq_some_iff.mp htype⟩
    · cases htype
  · rintro ⟨value, hcreation, htype⟩
    obtain ⟨hvalue, hkind⟩ := initialValue?_eq_some_iff.mpr hcreation
    exact ⟨value, hvalue, by rw [if_pos hkind]; exact Node.child?_eq_some_iff.mpr htype⟩

-- What a declarator yields behind a written type. Behind `var` the type is that of the object
-- that the declarator itself creates.
inductive Yields (document : Document) (written : String) (declarator : Node) : Binding → Prop
  | plain {name : Node} (hplain : Text.trim written ≠ "var") (hname : NameOf declarator name)
      (htext : document.text name ≠ "") (htype : Text.typeName written ≠ "") :
      Yields document written declarator
        ⟨document.text name, Text.typeName written, name.start⟩
  | created {name value type : Node} (hvar : Text.trim written = "var")
      (hname : NameOf declarator name) (hvalue : Creation declarator value)
      (hnode : First (fun child => child.field = some "type") value.children type)
      (htext : document.text name ≠ "") (htype : Text.typeName (document.text type) ≠ "") :
      Yields document written declarator
        ⟨document.text name, Text.typeName (document.text type), name.start⟩

theorem ofDeclarator?_eq_some_iff {document : Document} {written : String} {declarator : Node}
    {binding : Binding} :
    ofDeclarator? document written declarator = some binding ↔
      Yields document written declarator binding := by
  rw [ofDeclarator?, Option.bind_eq_some_iff]
  constructor
  · rintro ⟨name, hname, hmade⟩
    have hname := boundName?_eq_some_iff.mp hname
    unfold declaratorType at hmade
    split at hmade
    · next hplain =>
      obtain ⟨htext, htype, rfl⟩ := make?_eq_some_iff.mp hmade
      exact .plain hplain hname htext htype
    · next hvar =>
      rw [createdType?_eq_map] at hmade
      cases hcreated : createdNode? declarator with
      | none => simp [hcreated, make?_empty] at hmade
      | some type =>
          rw [hcreated] at hmade
          obtain ⟨value, hvalue, hnode⟩ := createdNode?_eq_some_iff.mp hcreated
          obtain ⟨htext, htype, rfl⟩ := make?_eq_some_iff.mp hmade
          exact .created (not_not.mp hvar) hname hvalue hnode htext htype
  · intro hyields
    cases hyields with
    | @plain name hplain hname htext htype =>
        refine ⟨name, boundName?_eq_some_iff.mpr hname, ?_⟩
        rw [declaratorType, if_pos hplain]
        exact make?_eq_some_iff.mpr ⟨htext, htype, rfl⟩
    | @created name value type hvar hname hvalue hnode htext htype =>
        refine ⟨name, boundName?_eq_some_iff.mpr hname, ?_⟩
        rw [declaratorType, if_neg (not_not.mpr hvar), createdType?_eq_map,
          createdNode?_eq_some_iff.mpr ⟨value, hvalue, hnode⟩]
        exact make?_eq_some_iff.mpr ⟨htext, htype, rfl⟩

-- The declarations that can hold several declarators behind one type.
def variableKinds : List String :=
  ["variable_declaration", "field_declaration", "local_variable_declaration"]

-- The node of the type in front of the declarators. Only the first of these kinds has a type
-- without a field for it.
inductive TypeNode (declaration : Node) : Node → Prop
  | field {type : Node}
      (htype : First (fun child => child.field = some "type") declaration.children type) :
      TypeNode declaration type
  | leading {type : Node} (hkind : declaration.kind = "variable_declaration")
      (hnone : ∀ child ∈ declaration.children, child.field ≠ some "type")
      (htype : First (fun child => child.kind ≠ "variable_declarator") declaration.namedChildren
        type) : TypeNode declaration type

theorem sharedType?_eq_some_iff {declaration type : Node}
    (hkind : declaration.kind ∈ variableKinds) :
    sharedType? declaration = some type ↔ TypeNode declaration type := by
  have hfield : declaration.child? "type" = some type ↔
      First (fun child => child.field = some "type") declaration.children type :=
    Node.child?_eq_some_iff
  by_cases hfirst : declaration.kind = "variable_declaration"
  · have hleading : declaration.namedChildren.find?
        (fun child => child.kind != "variable_declarator") = some type ↔
          First (fun child => child.kind ≠ "variable_declarator") declaration.namedChildren type :=
      Lists.find?_eq_some_iff_first fun _ => by simp
    rw [sharedType?, if_pos hfirst, leadingType?, Option.or_eq_some_iff, hfield, hleading,
      Node.child?_eq_none_iff]
    constructor
    · rintro (htype | ⟨hnone, htype⟩)
      · exact .field htype
      · exact .leading hfirst hnone htype
    · rintro (htype | ⟨-, hnone, htype⟩)
      · exact Or.inl htype
      · exact Or.inr ⟨hnone, htype⟩
  · have hother : declaration.kind = "field_declaration" ∨
        declaration.kind = "local_variable_declaration" := by
      simpa [variableKinds, hfirst] using hkind
    rw [sharedType?, if_neg hfirst, if_pos hother, hfield]
    constructor
    · exact .field
    · rintro (htype | ⟨hkind, -, -⟩)
      · exact htype
      · exact absurd hkind hfirst

-- The text of the type in front of the declarators, empty when there is none.
def writtenType (document : Document) (declaration : Node) : String :=
  ((sharedType? declaration).map document.text).getD ""

theorem ofDeclaration_eq_filterMap (document : Document) {declaration : Node}
    (hkind : declaration.kind ∈ variableKinds) :
    ofDeclaration document declaration =
      (declarators declaration).filterMap
        (ofDeclarator? document (writtenType document declaration)) := by
  simp only [variableKinds, List.mem_cons, List.not_mem_nil, or_false] at hkind
  rcases hkind with hkind | hkind | hkind
  all_goals
    simp only [ofDeclaration, writtenType, sharedType?, hkind]
    rfl

def isDeclarator (node : Node) : Bool :=
  node.named && node.kind == "variable_declarator"

-- Declarations that are alike but for their declarators, which may be any others in any order and
-- at any place. No declarator stands in the field of the type.
structure Alike (declaration other : Node) : Prop where
  kind : other.kind = declaration.kind
  rest : (other.children.filter fun child => !isDeclarator child) =
    declaration.children.filter fun child => !isDeclarator child
  untyped : ∀ declarator ∈ declarators declaration, declarator.field ≠ some "type"
  untyped' : ∀ declarator ∈ declarators other, declarator.field ≠ some "type"

theorem mem_declarators {declaration child : Node} :
    child ∈ declarators declaration ↔ child ∈ declaration.children ∧ isDeclarator child = true := by
  simp [declarators, Node.namedChildren, isDeclarator, and_comm]

-- The type is never found among the declarators.
theorem child?_type_eq {declaration : Node}
    (huntyped : ∀ declarator ∈ declarators declaration, declarator.field ≠ some "type") :
    declaration.child? "type" =
      (declaration.children.filter fun child => !isDeclarator child).find?
        fun child => child.field == some "type" := by
  rw [Lists.find?_filter_of_imp, Node.child?]
  intro child hchild hfield
  cases hdeclarator : isDeclarator child with
  | false => rfl
  | true =>
      have hnot := huntyped child (mem_declarators.mpr ⟨hchild, hdeclarator⟩)
      exact absurd (by simpa using hfield) hnot

theorem leading_eq (declaration : Node) :
    declaration.namedChildren.find? (fun child => child.kind != "variable_declarator") =
      (declaration.children.filter fun child => !isDeclarator child).find?
        fun child => child.named && child.kind != "variable_declarator" := by
  rw [Lists.find?_filter_of_imp, Node.namedChildren, List.find?_filter]
  · congr 1
    funext child
    rw [Bool.decide_and, Bool.decide_eq_true, Bool.decide_eq_true]
  · intro child _ hleading
    simp only [Bool.and_eq_true, bne_iff_ne] at hleading
    simp [isDeclarator, hleading.2]

theorem Alike.sharedType?_eq {declaration other : Node} (halike : Alike declaration other) :
    sharedType? other = sharedType? declaration := by
  have hfield : other.child? "type" = declaration.child? "type" := by
    rw [child?_type_eq halike.untyped', child?_type_eq halike.untyped, halike.rest]
  have hleading : leadingType? other = leadingType? declaration := by
    rw [leadingType?, leadingType?, hfield, leading_eq, leading_eq, halike.rest]
  rw [sharedType?, sharedType?, halike.kind, hfield, hleading]

-- A declaration of variables is unpacked declarator by declarator, in order, and what one of them
-- yields is told by the type in front and by the declarator alone. So the others can be taken out,
-- put in or moved, and one that yields nothing does not keep any other from its binding.
theorem declarators_unpacked_alone (document : Document) (declaration : Node)
    (hkind : declaration.kind ∈ variableKinds) :
    let written := writtenType document declaration
    let unpack := ofDeclarator? document written
    ofDeclaration document declaration = (declarators declaration).filterMap unpack ∧
    ((∀ type, TypeNode declaration type → written = document.text type) ∧
      ((∀ type, ¬ TypeNode declaration type) → written = "")) ∧
    (∀ declarator binding,
      unpack declarator = some binding ↔ Yields document written declarator binding) ∧
    ∀ other : Node, Alike declaration other →
      ofDeclaration document other = (declarators other).filterMap unpack ∧
      ((declarators other).Perm (declarators declaration) →
        (ofDeclaration document other).Perm (ofDeclaration document declaration)) ∧
      ((declarators other).Sublist (declarators declaration) →
        (ofDeclaration document other).Sublist (ofDeclaration document declaration)) ∧
      ∀ front declarator back, declarators other = front ++ declarator :: back →
        ofDeclaration document other =
          front.filterMap unpack ++ (unpack declarator).toList ++ back.filterMap unpack := by
  intro written unpack
  have hall := ofDeclaration_eq_filterMap document hkind
  refine ⟨hall, ⟨?_, ?_⟩, fun _ _ => ofDeclarator?_eq_some_iff, ?_⟩
  · intro type htype
    simp [written, writtenType, (sharedType?_eq_some_iff hkind).mpr htype]
  · intro hnone
    have hmissing : sharedType? declaration = none := by
      rw [Option.eq_none_iff_forall_ne_some]
      exact fun type htype => hnone type ((sharedType?_eq_some_iff hkind).mp htype)
    simp [written, writtenType, hmissing]
  · intro other halike
    have hother : ofDeclaration document other = (declarators other).filterMap unpack := by
      have hsame : writtenType document other = written := by
        simp only [written, writtenType, halike.sharedType?_eq]
      rw [ofDeclaration_eq_filterMap document (halike.kind ▸ hkind), hsame]
    refine ⟨hother, ?_, ?_, ?_⟩
    · intro hperm
      rw [hother, hall]
      exact hperm.filterMap unpack
    · intro hsublist
      rw [hother, hall]
      exact hsublist.filterMap unpack
    · intro front declarator back hsplit
      rw [hother, hsplit, List.filterMap_append, List.append_assoc]
      cases hyields : unpack declarator with
      | none => simp [hyields]
      | some binding => simp [hyields]

-- A declarator of one letter that creates an object of a type of one letter.
def creator (start : Nat) : Node :=
  .branch "variable_declarator" none start (start + 11) [
    .branch "identifier" (some "name") start (start + 1) [],
    .token "=" (start + 2) (start + 3),
    .branch "object_creation_expression" none (start + 4) (start + 11) [
      .token "new" (start + 4) (start + 7),
      .branch "identifier" (some "type") (start + 8) (start + 9) [],
      .branch "argument_list" (some "arguments") (start + 9) (start + 11) [
        .token "(" (start + 9) (start + 10),
        .token ")" (start + 10) (start + 11)]]]

-- The second of three declarators creates no object, so that `var` leaves it without a type.
def threeDeclarators : Document where
  source := "var a = new A(), b = f(), c = new C();"
  root := .branch "variable_declaration" none 0 37 [
    .branch "implicit_type" (some "type") 0 3 [.token "var" 0 3],
    creator 4,
    .token "," 15 16,
    .branch "variable_declarator" none 17 24 [
      .branch "identifier" (some "name") 17 18 [],
      .token "=" 19 20,
      .branch "invocation_expression" none 21 24 [
        .branch "identifier" (some "function") 21 22 [],
        .branch "argument_list" (some "arguments") 22 24 [.token "(" 22 23, .token ")" 23 24]]],
    .token "," 24 25,
    creator 26]

theorem threeDeclarators_unpacked_alone :
    let declaration := threeDeclarators.root
    let other : Node := .mk declaration.label [
      .branch "implicit_type" (some "type") 0 3 [.token "var" 0 3],
      creator 26, .token "," 15 16, .token "," 24 25, creator 4]
    ofDeclaration threeDeclarators declaration = [⟨"a", "A", 4⟩, ⟨"c", "C", 26⟩] ∧
      ofDeclaration threeDeclarators other = [⟨"c", "C", 26⟩, ⟨"a", "A", 4⟩] := by
  intro declaration other
  obtain ⟨hall, -, -, hothers⟩ :=
    declarators_unpacked_alone threeDeclarators declaration (by decide)
  have halike : Alike declaration other := ⟨rfl, rfl, by decide, by decide⟩
  obtain ⟨hother, -⟩ := hothers other halike
  rw [hall, hother]
  decide +kernel

end Binding

end ClassAtlas
