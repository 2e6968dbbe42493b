import ClassAtlas.Tree.Node

namespace ClassAtlas

-- One line of a listing: a node's label and how deep the node lies.
structure Line where
  depth : Nat
  label : Label

namespace Line

-- Puts a node in front of the trees that the lines behind it make up. Those that lie
-- deeper are its children.
def attach (line : Line) (trees : List (Nat × Node)) : List (Nat × Node) :=
  let deeper (tree : Nat × Node) : Bool := line.depth < tree.1
  (line.depth, .mk line.label ((trees.takeWhile deeper).map (·.2))) :: trees.dropWhile deeper

end Line

namespace Node

-- The tree that a listing describes. There is none when the lines make up several
-- trees, or no line is given.
def ofListing? (lines : List Line) : Option Node :=
  match lines.foldr Line.attach [] with
  | [(_, node)] => some node
  | _ => none

end Node

end ClassAtlas
