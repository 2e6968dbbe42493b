import ClassAtlas.Pattern.Fit
import ClassAtlas.Query.Basic
import ClassAtlas.Tree.Document

namespace ClassAtlas

-- One way in which a rule of a query fits into a document.
structure Match where
  rule : Nat
  captures : List Capture

namespace Match

def first? (found : Match) (name : String) : Option Node :=
  (found.captures.find? (fun capture => capture.1 == name)).map (·.2)

def all (found : Match) (name : String) : List Node :=
  (found.captures.filter (fun capture => capture.1 == name)).map (·.2)

-- The smallest span around all captured nodes.
def span (found : Match) : Span :=
  match found.captures.map (·.2.span) with
  | [] => .zero
  | first :: rest => rest.foldl (fun a b => ⟨min a.start b.start, max a.stop b.stop⟩) first

-- Whether a match may stand before another: it starts earlier, or it starts at the same
-- place and does not end earlier.
def before (a b : Match) : Bool :=
  a.span.start < b.span.start || (a.span.start == b.span.start && b.span.stop ≤ a.span.stop)

end Match

def TextTest.holds : TextTest → String → Bool
  | equals expected, text => text == expected
  | startsIn ranges, text =>
      match text.toList with
      | [] => false
      | c :: _ => ranges.any fun range => range.1 ≤ c && c ≤ range.2

-- A condition speaks about every node under its capture.
def Condition.holds (condition : Condition) (document : Document) (found : Match) : Bool :=
  (found.all condition.capture).all fun node => condition.test.holds (document.text node)

namespace Query

-- The matches with a given root.
def matchesAt (query : Query) (document : Document) (root : Node) : List Match :=
  query.zipIdx.flatMap fun (rule, index) =>
    ((rule.pattern.fits root).map (Match.mk index)).filter fun found =>
      rule.conditions.all (·.holds document found)

-- All matches: by the place of their roots in the tree, then by the number of the rule,
-- then from left to right.
def allMatches (query : Query) (document : Document) : List Match :=
  document.root.preorder.flatMap (query.matchesAt document)

-- All matches, sorted by their spans. Matches with the same span keep their order.
def run (query : Query) (document : Document) : List Match :=
  (query.allMatches document).mergeSort Match.before

end Query

end ClassAtlas
