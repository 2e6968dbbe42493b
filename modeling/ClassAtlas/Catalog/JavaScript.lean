import ClassAtlas.Aspect
import ClassAtlas.Catalog.Shape

namespace ClassAtlas.Catalog

open Pattern

def javascript : Aspect → Query
  | .classes => [classRule "identifier" "class_declaration"]
  | .methods => [rule (kind "class_body" [method anyNamed "method_definition"])]
  | .calls => scriptCalls
  | .heritage => [heritageRule "class_declaration" "class_heritage"]
  | .declarations => [
      createdVariable,
      rule <| kind "field_definition" [
        field "property" (capture "decl.name" (ofKind "property_identifier")),
        field "value" created],
      assignedMember]

end ClassAtlas.Catalog
