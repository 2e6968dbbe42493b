import ClassAtlas.Fact.Declaration
import ClassAtlas.Text.DottedName

namespace ClassAtlas

-- The parents that one clause of a class names. The superclass is the parent that a
-- call on `super` reaches, when the clause names one.
structure Heritage where
  parents : List String
  superclass : Option String
  offset : Nat
  deriving DecidableEq

namespace Heritage

-- Kinds of nodes that only hold parents.
def isWrapper (kind : String) : Bool :=
  ["class_heritage", "extends_clause", "implements_clause", "extends_type_clause", "superclass",
    "super_interfaces", "extends_interfaces", "type_list", "base_list",
    "argument_list"].contains kind

-- Kinds of nodes that stand among parents and never name one.
def isNoise (kind : String) : Bool :=
  ["comment", "type_arguments", "type_argument_list", "keyword_argument", "list_splat",
    "dictionary_splat"].contains kind

-- Clauses that list interfaces and no superclass.
def listsInterfaces (kind : String) : Bool :=
  ["super_interfaces", "extends_interfaces", "extends_type_clause",
    "implements_clause"].contains kind

-- The name of the type that a node stands for, unless it has none.
def typeNames (document : Document) (node : Node) : List String :=
  [Text.typeName (document.text node)].filter (· ≠ "")

mutual

-- The parents that a clause names, in order.
def parentNames (document : Document) : Node → List String
  | .mk _ children => parentNamesAmong document children

def parentNamesAmong (document : Document) : List Node → List String
  | [] => []
  | child :: rest =>
      (if !child.named || isNoise child.kind then []
        else if isWrapper child.kind then parentNames document child
        else typeNames document child) ++ parentNamesAmong document rest

end

-- The superclass that a clause names. Where a clause may hold both classes and
-- interfaces without saying which, the first entry counts.
def superclass? (document : Document) (clause : Node) : Option String :=
  if listsInterfaces clause.kind then none
  else if clause.kind = "class_heritage" then
    match clause.firstNamed? "extends_clause" with
    | some extending => (parentNames document extending).head?
    | none =>
        if (clause.firstNamed? "implements_clause").isSome then none
        else (parentNames document clause).head?
  else (parentNames document clause).head?

-- Captured parents come first, and the first of them is taken for the superclass.
def ofMatch (document : Document) (found : Match) : Heritage :=
  let captured := (found.all "class.parent").flatMap (typeNames document)
  let clauses := found.all "class.heritage"
  { parents := captured ++ clauses.flatMap (parentNames document)
    superclass := captured.head?.or (clauses.findSome? (superclass? document))
    offset :=
      (((found.first? "class.heritage").or (found.first? "class.parent")).map (·.start)).getD 0 }

end Heritage

end ClassAtlas
