import ClassAtlas.Aspect
import ClassAtlas.Catalog.Shape

namespace ClassAtlas.Catalog

open Pattern

def csharp : Aspect → Query
  | .classes =>
      ["class_declaration", "interface_declaration", "struct_declaration",
        "record_declaration"].map (classRule "identifier")
  | .methods => [rule (method (ofKind "identifier") "method_declaration")]
  | .calls => [
      plainCall "invocation_expression",
      memberCall "invocation_expression" "member_access_expression"
        (field "expression" (capture "method.object" (node .any [])))
        (field "name" (capture "method.name" (ofKind "identifier")))]
  | .heritage =>
      ["class_declaration", "interface_declaration", "struct_declaration",
        "record_declaration"].map (heritageRule · "base_list")
  | .declarations =>
      ["variable_declaration", "parameter", "property_declaration"].map declarationRule

end ClassAtlas.Catalog
