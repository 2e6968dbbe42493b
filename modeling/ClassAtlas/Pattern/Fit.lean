import ClassAtlas.Pattern.Basic
import ClassAtlas.Tree.Node

namespace ClassAtlas

-- A captured node under the name of its capture.
abbrev Capture := String × Node

-- Error nodes fit no pattern that leaves the kind open.
def NodeTest.accepts : NodeTest → Node → Bool
  | kind name, node => node.named && node.kind == name
  | named, node => node.named && node.kind != "ERROR"
  | any, node => node.kind != "ERROR"
  | token text, node => !node.named && node.kind == text

namespace Pattern

-- Every way to take a node from the list for a first pattern and go on behind it, the
-- leftmost node first.
def choose (first : Node → List (List Capture)) (others : List Node → List (List Capture)) :
    List Node → List (List Capture)
  | [] => []
  | found :: rest =>
      (first found).flatMap (fun captures => (others rest).map (captures ++ ·)) ++
        choose first others rest

mutual

-- The captures of each way in which a pattern fits a node. A node's own captures come
-- before those of its children.
def fits : Pattern → Node → List (List Capture)
  | node test patterns, found =>
      if test.accepts found then fitsAmong patterns found.children else []
  | oneOf branches, found => fitsAny branches found
  | field name pattern, found =>
      if found.field = some name then fits pattern found else []
  | capture name pattern, found => (fits pattern found).map ((name, found) :: ·)
  | optional pattern, found => fits pattern found

def fitsAny : List Pattern → Node → List (List Capture)
  | [], _ => []
  | pattern :: rest, found => fits pattern found ++ fitsAny rest found

-- Every way to find the patterns, in order, among a list of siblings. An optional
-- pattern is passed over only when no way uses it.
def fitsAmong : List Pattern → List Node → List (List Capture)
  | [], _ => [[]]
  | pattern :: rest, siblings =>
      let used := choose (fun found => fits pattern found) (fun behind => fitsAmong rest behind)
        siblings
      if pattern.isOptional && used.isEmpty then fitsAmong rest siblings else used

end

end Pattern

end ClassAtlas
