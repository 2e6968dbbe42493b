import ClassAtlas.Aspect
import ClassAtlas.Catalog.Shape

namespace ClassAtlas.Catalog

open Pattern

-- A parameter with a type.
def annotatedParameter (parameterKind : String) : Rule :=
  rule <| kind parameterKind [
    field "pattern" (capture "decl.name" (ofKind "identifier")), annotated]

def typescript : Aspect → Query
  | .classes =>
      ["class_declaration", "abstract_class_declaration", "interface_declaration"].map
        (classRule "type_identifier")
  | .methods => [
      rule (kind "class_body" [method anyNamed "method_definition"]),
      rule (kind "class_body" [method anyNamed "abstract_method_signature"]),
      rule (kind "interface_body" [method anyNamed "method_signature"])]
  | .calls => scriptCalls
  | .heritage => [
      heritageRule "class_declaration" "class_heritage",
      heritageRule "abstract_class_declaration" "class_heritage",
      heritageRule "interface_declaration" "extends_type_clause"]
  | .declarations => [
      rule <| kind "public_field_definition" [
        field "name" (capture "decl.name" anyNamed), annotated],
      rule <| kind "public_field_definition" [
        field "name" (capture "decl.name" anyNamed), field "value" created],
      annotatedParameter "required_parameter",
      annotatedParameter "optional_parameter",
      rule <| kind "variable_declarator" [
        field "name" (capture "decl.name" (ofKind "identifier")), annotated],
      createdVariable,
      assignedMember]

end ClassAtlas.Catalog
