namespace ClassAtlas.Text

-- What is left behind the first `count` bytes of the UTF-8 form. There is no answer
-- when the cut falls inside a character or past the end.
def dropBytes? : Nat → List Char → Option (List Char)
  | 0, chars => some chars
  | _ + 1, [] => none
  | count + 1, c :: rest =>
      if c.utf8Size ≤ count + 1 then dropBytes? (count + 1 - c.utf8Size) rest else none

-- The characters of the first `count` bytes, under the same rule.
def takeBytes? : Nat → List Char → Option (List Char)
  | 0, _ => some []
  | _ + 1, [] => none
  | count + 1, c :: rest =>
      if c.utf8Size ≤ count + 1 then (takeBytes? (count + 1 - c.utf8Size) rest).map (c :: ·)
      else none

-- The text between two byte offsets, empty when they do not cut out whole characters.
def slice (text : String) (start stop : Nat) : String :=
  match (dropBytes? start text.toList).bind (takeBytes? (stop - start)) with
  | some chars => String.ofList chars
  | none => ""

def newlinesWithin : Nat → List Char → Nat
  | 0, _ => 0
  | _ + 1, [] => 0
  | count + 1, c :: rest =>
      (if c = '\n' then 1 else 0) + newlinesWithin (count + 1 - c.utf8Size) rest

-- The row of a byte offset: the number of line feeds before it.
def row (text : String) (offset : Nat) : Nat :=
  newlinesWithin offset text.toList

end ClassAtlas.Text
