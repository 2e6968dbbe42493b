import ClassAtlas.Text.Slice
import ClassAtlas.Tree.Node

namespace ClassAtlas

-- A source text with the tree that a parser built for it.
structure Document where
  source : String
  root : Node

namespace Document

def text (document : Document) (node : Node) : String :=
  Text.slice document.source node.span.start node.span.stop

def startRow (document : Document) (node : Node) : Nat :=
  Text.row document.source node.span.start

def stopRow (document : Document) (node : Node) : Nat :=
  Text.row document.source node.span.stop

def hasErrors (document : Document) : Bool :=
  document.root.hasError

end Document

end ClassAtlas
