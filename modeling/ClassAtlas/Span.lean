namespace ClassAtlas

-- A range of byte offsets, the end not included. Nothing forces the start to come
-- first; a span that ends before it starts holds no offset.
structure Span where
  start : Nat
  stop : Nat
  deriving DecidableEq, Inhabited

namespace Span

def zero : Span := ⟨0, 0⟩

def contains (span : Span) (offset : Nat) : Bool :=
  span.start ≤ offset && offset < span.stop

def length (span : Span) : Nat :=
  span.stop - span.start

def isEmpty (span : Span) : Bool :=
  span.length == 0

-- The shorter of two numbered spans, the first one on a tie.
def shorter (best other : Span × Nat) : Span × Nat :=
  if other.1.length < best.1.length then other else best

-- The position of the innermost span around an offset: the first of the shortest
-- ones that contain it.
def innermost? (spans : List Span) (offset : Nat) : Option Nat :=
  match spans.zipIdx.filter (fun entry => entry.1.contains offset) with
  | [] => none
  | first :: rest => some (rest.foldl shorter first).2

end Span

end ClassAtlas
