namespace ClassAtlas

-- Which nodes a pattern accepts before it looks at their children: named nodes of one
-- kind, any named node, any node at all, or a token by its text.
inductive NodeTest where
  | kind (name : String)
  | named
  | any
  | token (text : String)

-- A shape that a node may have. The children of a node pattern stand for some of the
-- node's children, in order; an optional child may be left out when nothing fits it.
inductive Pattern where
  | node (test : NodeTest) (children : List Pattern)
  | oneOf (branches : List Pattern)
  | field (name : String) (pattern : Pattern)
  | capture (name : String) (pattern : Pattern)
  | optional (pattern : Pattern)

namespace Pattern

def ofKind (kind : String) : Pattern :=
  node (.kind kind) []

-- Captures what a pattern finds, if it finds something.
def named (name : String) : Pattern → Pattern
  | optional pattern => optional (capture name pattern)
  | pattern => capture name pattern

-- Asks for a field of what a pattern finds, if it finds something.
def inField (name : String) : Pattern → Pattern
  | optional pattern => optional (field name pattern)
  | pattern => field name pattern

def orNothing : Pattern → Pattern
  | optional pattern => optional pattern
  | pattern => optional pattern

def isOptional : Pattern → Bool
  | optional _ => true
  | _ => false

end Pattern

end ClassAtlas
