import ClassAtlas.Aspect
import ClassAtlas.Catalog.Shape

namespace ClassAtlas.Catalog

open Pattern

-- A call counts as the creation of an object when the name it calls starts with a
-- capital letter.
def python : Aspect → Query
  | .classes => [classRule "identifier" "class_definition"]
  | .methods => [
      rule <| kind "class_definition" [field "body" (kind "block" [
        method (ofKind "identifier") "function_definition"])],
      rule <| kind "class_definition" [field "body" (kind "block" [
        kind "decorated_definition" [field "definition"
          (method (ofKind "identifier") "function_definition")]])]]
  | .calls => [
      plainCall "call",
      memberCall "call" "attribute"
        (field "object" (capture "method.object" anyNamed))
        (field "attribute" (capture "method.name" (ofKind "identifier")))]
  | .heritage => [
      rule <| kind "class_definition" [
        field "superclasses" (capture "class.heritage" (ofKind "argument_list"))]]
  | .declarations => [
      declarationRule "typed_parameter",
      rule <| kind "typed_default_parameter" [
        field "name" (capture "decl.name" (ofKind "identifier")),
        field "type" (capture "decl.type" (ofKind "type"))],
      rule <| kind "assignment" [
        field "left" (capture "decl.name" anyNamed),
        field "type" (capture "decl.type" (ofKind "type"))],
      ⟨kind "assignment" [
          field "left" (capture "decl.name" anyNamed),
          field "right" (kind "call" [
            field "function" (capture "decl.type" (ofKind "identifier"))])],
        [⟨"decl.type", .startsIn [('A', 'Z')]⟩]⟩]

end ClassAtlas.Catalog
