import ClassAtlas.Fact.Declaration
import ClassAtlas.Text.DottedName
import ClassAtlas.Text.Qualifier

namespace ClassAtlas

-- A field, property, parameter or variable together with the type that it is declared
-- with.
structure Binding where
  name : String
  type : String
  offset : Nat
  deriving DecidableEq

namespace Binding

-- Nothing is bound without a name or without the name of a type.
def make? (name type : String) (offset : Nat) : Option Binding :=
  let type := Text.typeName type
  if name = "" ∨ type = "" then none else some ⟨name, type, offset⟩

def ofNodes? (document : Document) (name type : Node) : Option Binding :=
  make? (document.text name) (document.text type) name.start

-- The name in a declarator, with or without a field for it.
def boundName? (declarator : Node) : Option Node :=
  (declarator.child? "name").or (declarator.firstNamed? "identifier")

-- The value that a declarator starts with. It may stand in a clause of its own.
def initialValue? (declarator : Node) : Option Node :=
  (declarator.child? "value").or <| declarator.namedChildren.findSome? fun child =>
    if child.kind = "object_creation_expression" then some child
    else if child.kind = "equals_value_clause" then
      child.firstNamed? "object_creation_expression"
    else none

-- The type of the object that a declarator creates.
def createdType? (document : Document) (declarator : Node) : Option String :=
  (initialValue? declarator).bind fun value =>
    if value.kind = "object_creation_expression" then (value.child? "type").map document.text
    else none

-- The type that a declarator gets. The word `var` leaves it to the created object.
def declaratorType (document : Document) (written : String) (declarator : Node) : String :=
  if Text.trim written ≠ "var" then written
  else (createdType? document declarator).getD ""

def ofDeclarator? (document : Document) (written : String) (declarator : Node) :
    Option Binding :=
  (boundName? declarator).bind fun name =>
    make? (document.text name) (declaratorType document written declarator) name.start

-- One binding at most for each declarator, and none depends on the others.
def ofDeclarators (document : Document) (written : String) (declaration : Node) :
    List Binding :=
  (declaration.namedChildren.filter (fun child => child.kind == "variable_declarator")).filterMap
    (ofDeclarator? document written)

-- The type that is written in front of declarators, with or without a field for it.
def leadingType? (declaration : Node) : Option Node :=
  (declaration.child? "type").or
    (declaration.namedChildren.find? (fun child => child.kind != "variable_declarator"))

-- The bindings that a whole declaration makes.
def ofDeclaration (document : Document) (declaration : Node) : List Binding :=
  let kind := declaration.kind
  if kind = "variable_declaration" then
    ofDeclarators document (((leadingType? declaration).map document.text).getD "") declaration
  else if kind = "field_declaration" ∨ kind = "local_variable_declaration" then
    ofDeclarators document (((declaration.child? "type").map document.text).getD "") declaration
  else if kind = "parameter" ∨ kind = "property_declaration" ∨ kind = "formal_parameter" then
    match declaration.child? "name", declaration.child? "type" with
    | some name, some type => (ofNodes? document name type).toList
    | _, _ => []
  else if kind = "typed_parameter" then
    match declaration.firstNamed? "identifier", declaration.child? "type" with
    | some name, some type => (ofNodes? document name type).toList
    | _, _ => []
  else []

-- A captured pair of name and type comes first, then whole declarations.
def ofMatch (document : Document) (found : Match) : List Binding :=
  let pair := match found.first? "decl.name", found.first? "decl.type" with
    | some name, some type =>
        (make? (Text.unqualified (document.text name)) (document.text type) name.start).toList
    | _, _ => []
  pair ++ (found.all "decl.node").flatMap (ofDeclaration document)

end Binding

end ClassAtlas
