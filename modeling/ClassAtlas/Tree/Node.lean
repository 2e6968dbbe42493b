import ClassAtlas.Span

namespace ClassAtlas

-- What a tree records about one node. The field is the part that the node plays in its
-- parent. A missing node was put in by error recovery and has no width.
structure Label where
  kind : String
  field : Option String
  named : Bool
  missing : Bool
  hasError : Bool
  span : Span

-- A concrete syntax tree. Punctuation, keywords and comments are nodes too.
inductive Node where
  | mk (label : Label) (children : List Node)

namespace Node

def label : Node → Label
  | mk label _ => label

def children : Node → List Node
  | mk _ children => children

def kind (node : Node) : String := node.label.kind

def field (node : Node) : Option String := node.label.field

def named (node : Node) : Bool := node.label.named

def hasError (node : Node) : Bool := node.label.hasError

def span (node : Node) : Span := node.label.span

def start (node : Node) : Nat := node.span.start

def namedChildren (node : Node) : List Node :=
  node.children.filter named

-- The first child in a field.
def child? (node : Node) (field : String) : Option Node :=
  node.children.find? (fun child => child.field == some field)

def firstNamed? (node : Node) (kind : String) : Option Node :=
  node.namedChildren.find? (fun child => child.kind == kind)

mutual

-- The node and everything below it, parents before their children and siblings in
-- order.
def preorder : Node → List Node
  | mk label children => mk label children :: preorderAll children

def preorderAll : List Node → List Node
  | [] => []
  | node :: rest => preorder node ++ preorderAll rest

end

end Node

end ClassAtlas
