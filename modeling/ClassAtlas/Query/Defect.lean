import ClassAtlas.Text.Slice

namespace ClassAtlas

-- Why a text is no query: a name that the grammar or the query does not know, or a form
-- that no pattern has.
inductive Trouble where
  | kind
  | field
  | capture
  | form

-- The trouble with a query and the byte offset where it is.
structure Defect where
  trouble : Trouble
  text : String
  offset : Nat

namespace Defect

def charsBefore (defect : Defect) : List Char :=
  (Text.takeBytes? defect.offset defect.text.toList).getD []

def charsBehind (defect : Defect) : List Char :=
  (Text.dropBytes? defect.offset defect.text.toList).getD []

-- The part of the defect's line that stands before it.
def lineBefore (defect : Defect) : List Char :=
  (defect.charsBefore.reverse.takeWhile (· != '\n')).reverse

def lineBehind (defect : Defect) : List Char :=
  defect.charsBehind.takeWhile (· != '\n')

def row (defect : Defect) : Nat :=
  defect.charsBefore.count '\n'

-- Columns count bytes, like offsets.
def column (defect : Defect) : Nat :=
  (String.ofList defect.lineBefore).utf8ByteSize

-- The name at the defect.
def name (defect : Defect) : String :=
  String.ofList (defect.charsBehind.takeWhile fun c => c.isAlphanum || c == '_' || c == '-')

-- The line of the defect with a mark under it. Behind the last line feed of a text there
-- is no line to show.
def marked (defect : Defect) : String :=
  let line := defect.lineBefore ++ defect.lineBehind
  if line.isEmpty && defect.charsBehind.isEmpty then "Unexpected EOF"
  else String.ofList (line ++ '\n' :: List.replicate defect.column ' ' ++ ['^'])

def description (defect : Defect) : String :=
  match defect.trouble with
  | .kind => "Invalid node type " ++ defect.name
  | .field => "Invalid field name " ++ defect.name
  | .capture => "Invalid capture name " ++ defect.name
  | .form => "Invalid syntax:\n" ++ defect.marked

-- Rows and columns are counted from one for readers.
def message (defect : Defect) : String :=
  "Query error at " ++ toString (defect.row + 1) ++ ":" ++ toString (defect.column + 1) ++ ". " ++
    defect.description

end Defect

end ClassAtlas
