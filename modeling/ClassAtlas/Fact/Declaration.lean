import ClassAtlas.Query.Match

namespace ClassAtlas

-- The text of the first node under a capture, empty when there is none.
def Match.text (document : Document) (found : Match) (name : String) : String :=
  ((found.first? name).map document.text).getD ""

-- A class, interface, struct, record or enum.
structure ClassDecl where
  name : String
  span : Span
  deriving DecidableEq

structure MethodDecl where
  name : String
  span : Span
  deriving DecidableEq

def ClassDecl.ofMatch (document : Document) (found : Match) : ClassDecl where
  name := found.text document "class.name"
  span := ((found.first? "class.definition").map (·.span)).getD .zero

def MethodDecl.ofMatch (document : Document) (found : Match) : MethodDecl where
  name := found.text document "method.name"
  span := ((found.first? "method.definition").map (·.span)).getD .zero

end ClassAtlas
