namespace ClassAtlas

-- The names that patterns for a language may use: the kinds of its named nodes and the
-- fields in which nodes can stand.
structure Grammar where
  kinds : List String
  fields : List String

namespace Grammar

-- Error recovery makes error nodes in every language.
def hasKind (grammar : Grammar) (name : String) : Bool :=
  name == "ERROR" || grammar.kinds.contains name

def hasField (grammar : Grammar) (name : String) : Bool :=
  grammar.fields.contains name

end Grammar

end ClassAtlas
