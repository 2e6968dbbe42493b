import Mathlib.Logic.Basic
import ClassAtlas.Fact.Binding

namespace ClassAtlas

namespace Binding

theorem make?_eq_some_iff {name type : String} {offset : Nat} {binding : Binding} :
    make? name type offset = some binding ↔
      name ≠ "" ∧ Text.typeName type ≠ "" ∧ binding = ⟨name, Text.typeName type, offset⟩ := by
  simp only [make?, Option.ite_none_left_eq_some, Option.some.injEq, not_or, and_assoc,
    eq_comm (a := binding)]

def declarators (declaration : Node) : List Node :=
  declaration.namedChildren.filter (fun child => child.kind == "variable_declarator")

-- The type in front of the declarators of a declaration.
def sharedType? (declaration : Node) : Option Node :=
  if declaration.kind = "variable_declaration" then leadingType? declaration
  else if declaration.kind = "field_declaration" ∨ declaration.kind = "local_variable_declaration"
    then declaration.child? "type"
  else none

def createdNode? (declarator : Node) : Option Node :=
  (initialValue? declarator).bind fun value =>
    if value.kind = "object_creation_expression" then value.child? "type" else none

theorem createdType?_eq_map (document : Document) (declarator : Node) :
    createdType? document declarator = (createdNode? declarator).map document.text := by
  unfold createdType? createdNode?
  cases initialValue? declarator with
  | none => rfl
  | some value =>
      simp only [Option.bind_some]
      split <;> rfl

-- The nodes in a whole declaration that give a name and its type. Behind `var` the type is that
-- of the created object.
inductive Pairs (document : Document) (declaration : Node) : Node → Node → Prop
  | shared {type declarator name : Node} (htype : sharedType? declaration = some type)
      (hdeclarator : declarator ∈ declarators declaration)
      (hname : boundName? declarator = some name)
      (hplain : Text.trim (document.text type) ≠ "var") : Pairs document declaration name type
  | created {word declarator name type : Node} (hword : sharedType? declaration = some word)
      (hdeclarator : declarator ∈ declarators declaration)
      (hname : boundName? declarator = some name)
      (hvar : Text.trim (document.text word) = "var")
      (htype : createdNode? declarator = some type) : Pairs document declaration name type
  | parameter {name type : Node}
      (hkind : declaration.kind = "parameter" ∨ declaration.kind = "property_declaration" ∨
        declaration.kind = "formal_parameter")
      (hname : declaration.child? "name" = some name)
      (htype : declaration.child? "type" = some type) : Pairs document declaration name type
  | typed {name type : Node} (hkind : declaration.kind = "typed_parameter")
      (hname : declaration.firstNamed? "identifier" = some name)
      (htype : declaration.child? "type" = some type) : Pairs document declaration name type

variable {document : Document} {declaration : Node} {binding : Binding}

theorem make?_empty (name : String) (offset : Nat) : make? name "" offset = none := by
  have hempty : Text.typeName "" = "" := by decide
  simp [make?, hempty]

theorem exists_pair_of_mem_ofDeclarators {type : Option Node}
    (hshared : sharedType? declaration = type)
    (hbinding : binding ∈ ofDeclarators document ((type.map document.text).getD "") declaration) :
    ∃ name node, Pairs document declaration name node ∧
      ofNodes? document name node = some binding := by
  obtain ⟨declarator, hdeclarator, hmade⟩ := List.mem_filterMap.mp hbinding
  obtain ⟨name, hname, hmade⟩ := Option.bind_eq_some_iff.mp hmade
  cases type with
  | none =>
      have hplain : Text.trim "" ≠ "var" := by decide
      simp [declaratorType, hplain, make?_empty] at hmade
  | some type =>
      unfold declaratorType at hmade
      split at hmade
      · next hplain => exact ⟨name, type, .shared hshared hdeclarator hname hplain, hmade⟩
      · next hvar =>
        rw [createdType?_eq_map] at hmade
        cases hcreated : createdNode? declarator with
        | none => simp [hcreated, make?_empty] at hmade
        | some created =>
            rw [hcreated] at hmade
            exact ⟨name, created,
              .created hshared hdeclarator hname (not_not.mp hvar) hcreated, hmade⟩

theorem exists_pair_of_mem_ofDeclaration (hbinding : binding ∈ ofDeclaration document declaration) :
    ∃ name type, Pairs document declaration name type ∧
      ofNodes? document name type = some binding := by
  simp only [ofDeclaration] at hbinding
  split at hbinding
  · next hkind =>
    exact exists_pair_of_mem_ofDeclarators (by rw [sharedType?, if_pos hkind]) hbinding
  · next hfirst =>
    split at hbinding
    · next hkind =>
      apply exists_pair_of_mem_ofDeclarators _ hbinding
      rw [sharedType?, if_neg hfirst, if_pos hkind]
    · split at hbinding
      · next hkind =>
        split at hbinding
        · next name type hname htype =>
          exact ⟨name, type, .parameter hkind hname htype, Option.mem_toList.mp hbinding⟩
        · cases hbinding
      · split at hbinding
        · next hkind =>
          split at hbinding
          · next name type hname htype =>
            exact ⟨name, type, .typed hkind hname htype, Option.mem_toList.mp hbinding⟩
          · cases hbinding
        · cases hbinding

theorem ofDeclaration_eq_ofDeclarators {type : Node}
    (hshared : sharedType? declaration = some type) :
    ofDeclaration document declaration =
      ofDeclarators document (document.text type) declaration := by
  unfold sharedType? at hshared
  split at hshared
  · next hkind => simp [ofDeclaration, hkind, hshared]
  · next hfirst =>
    split at hshared
    · next hkind => simp [ofDeclaration, hfirst, hkind, hshared]
    · cases hshared

theorem mem_ofDeclarators {declarator name : Node} {written : String}
    (hdeclarator : declarator ∈ declarators declaration)
    (hname : boundName? declarator = some name)
    (hmade : make? (document.text name) (declaratorType document written declarator) name.start =
      some binding) : binding ∈ ofDeclarators document written declaration :=
  List.mem_filterMap.mpr ⟨declarator, hdeclarator, Option.bind_eq_some_iff.mpr ⟨name, hname, hmade⟩⟩

theorem Pairs.mem_ofDeclaration {name type : Node} (hpair : Pairs document declaration name type)
    (hmade : ofNodes? document name type = some binding) :
    binding ∈ ofDeclaration document declaration := by
  cases hpair with
  | shared htype hdeclarator hname hplain =>
      rw [ofDeclaration_eq_ofDeclarators htype]
      apply mem_ofDeclarators hdeclarator hname
      rwa [declaratorType, if_pos hplain]
  | created hword hdeclarator hname hvar htype =>
      rw [ofDeclaration_eq_ofDeclarators hword]
      apply mem_ofDeclarators hdeclarator hname
      rwa [declaratorType, if_neg (not_not.mpr hvar), createdType?_eq_map, htype]
  | parameter hkind hname htype =>
      rcases hkind with hkind | hkind | hkind <;>
        simpa [ofDeclaration, hkind, hname, htype] using hmade
  | typed hkind hname htype => simpa [ofDeclaration, hkind, hname, htype] using hmade

theorem mem_ofDeclaration_iff :
    binding ∈ ofDeclaration document declaration ↔
      ∃ name type, Pairs document declaration name type ∧
        ofNodes? document name type = some binding :=
  ⟨exists_pair_of_mem_ofDeclaration, fun ⟨_, _, hpair, hmade⟩ => hpair.mem_ofDeclaration hmade⟩

-- What a match declares: a name, where it stands, and the node of its type.
inductive Writes (document : Document) (found : Match) : String → Nat → Node → Prop
  | captured {name type : Node} (hname : found.first? "decl.name" = some name)
      (htype : found.first? "decl.type" = some type) :
      Writes document found (Text.unqualified (document.text name)) name.start type
  | whole {declaration name type : Node} (hdeclaration : declaration ∈ found.all "decl.node")
      (hpair : Pairs document declaration name type) :
      Writes document found (document.text name) name.start type

-- Every binding has a written name and a written type behind it.
theorem mem_ofMatch_iff {found : Match} :
    binding ∈ ofMatch document found ↔
      ∃ name offset type, Writes document found name offset type ∧
        make? name (document.text type) offset = some binding := by
  constructor
  · intro hbinding
    rcases List.mem_append.mp hbinding with hpair | hwhole
    · split at hpair
      · next name type hname htype =>
        exact ⟨_, _, type, .captured hname htype, Option.mem_toList.mp hpair⟩
      · cases hpair
    · obtain ⟨declaration, hdeclaration, hmem⟩ := List.mem_flatMap.mp hwhole
      obtain ⟨name, type, hpair, hmade⟩ := mem_ofDeclaration_iff.mp hmem
      exact ⟨_, _, type, .whole hdeclaration hpair, hmade⟩
  · rintro ⟨_, _, type, hwrites, hmade⟩
    apply List.mem_append.mpr
    cases hwrites with
    | captured hname htype =>
        left
        rw [hname, htype]
        exact Option.mem_toList.mpr hmade
    | whole hdeclaration hpair =>
        right
        exact List.mem_flatMap.mpr ⟨_, hdeclaration, hpair.mem_ofDeclaration hmade⟩

end Binding

end ClassAtlas
