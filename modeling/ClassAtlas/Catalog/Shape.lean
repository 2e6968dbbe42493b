import ClassAtlas.Query.Basic

namespace ClassAtlas.Catalog

open Pattern

def rule (pattern : Pattern) : Rule := ⟨pattern, []⟩

-- A named node of a kind, with patterns for its children.
def kind (name : String) (children : List Pattern) : Pattern :=
  node (.kind name) children

def anyNamed : Pattern := node .named []

-- A declaration of a class under a name of some kind.
def classRule (nameKind classKind : String) : Rule :=
  rule <| capture "class.definition" <|
    kind classKind [field "name" (capture "class.name" (ofKind nameKind))]

-- A declaration of a method under a name that fits a pattern.
def method (name : Pattern) (methodKind : String) : Pattern :=
  capture "method.definition" (kind methodKind [field "name" (capture "method.name" name)])

-- A call of a function by its name alone.
def plainCall (callKind : String) : Rule :=
  rule <| capture "method.call" <|
    kind callKind [field "function" (capture "method.name" (ofKind "identifier"))]

-- A call of a member of an object.
def memberCall (callKind memberKind : String) (object member : Pattern) : Rule :=
  rule <| capture "method.call" <|
    kind callKind [field "function" (kind memberKind [object, member])]

-- A clause of a class that names parents.
def heritageRule (classKind clauseKind : String) : Rule :=
  rule <| kind classKind [capture "class.heritage" (ofKind clauseKind)]

-- A whole declaration, whose names and types are found later.
def declarationRule (declarationKind : String) : Rule :=
  rule (capture "decl.node" (ofKind declarationKind))

-- An object that is created by `new`, with its constructor taken for the type.
def created : Pattern :=
  kind "new_expression" [field "constructor" (capture "decl.type" anyNamed)]

-- A type that is written behind a name.
def annotated : Pattern :=
  field "type" (kind "type_annotation" [capture "decl.type" anyNamed])

-- An assignment of a new object to a member of the current one.
def assignedMember : Rule :=
  rule <| kind "assignment_expression" [
    field "left" (kind "member_expression" [
      field "object" (ofKind "this"),
      field "property" (capture "decl.name" (ofKind "property_identifier"))]),
    field "right" created]

-- A variable with a new object as its first value.
def createdVariable : Rule :=
  rule <| kind "variable_declarator" [
    field "name" (capture "decl.name" (ofKind "identifier")), field "value" created]

-- Calls as JavaScript writes them.
def scriptCalls : Query := [
  plainCall "call_expression",
  memberCall "call_expression" "member_expression"
    (field "object" (capture "method.object" anyNamed))
    (field "property" (capture "method.name"
      (oneOf [ofKind "property_identifier", ofKind "private_property_identifier"])))]

end ClassAtlas.Catalog
