import ClassAtlas.Aspect
import ClassAtlas.Catalog.Shape

namespace ClassAtlas.Catalog

open Pattern

-- A call names its object, if it has one, and its method in the same node.
def java : Aspect → Query
  | .classes =>
      ["class_declaration", "interface_declaration", "enum_declaration", "record_declaration"].map
        (classRule "identifier")
  | .methods => [rule (method (ofKind "identifier") "method_declaration")]
  | .calls => [
      rule <| capture "method.call" <| kind "method_invocation" [
        optional (field "object" (capture "method.object" anyNamed)),
        field "name" (capture "method.name" (ofKind "identifier"))]]
  | .heritage => [
      heritageRule "class_declaration" "superclass",
      heritageRule "class_declaration" "super_interfaces",
      heritageRule "interface_declaration" "extends_interfaces",
      heritageRule "enum_declaration" "super_interfaces",
      heritageRule "record_declaration" "super_interfaces"]
  | .declarations =>
      ["field_declaration", "local_variable_declaration", "formal_parameter"].map declarationRule

end ClassAtlas.Catalog
