import ClassAtlas.Text.Blank

namespace ClassAtlas.Text

def isWordStart (c : Char) : Bool :=
  c.isAlpha || c == '_' || c == '$'

def isWordPart (c : Char) : Bool :=
  c.isAlphanum || c == '_' || c == '$'

-- A word is one start character and then part characters. Only ASCII letters and
-- digits count.
def isWord : List Char → Bool
  | [] => false
  | c :: rest => isWordStart c && rest.all isWordPart

-- What continues a dotted name of which the first character has been read. A dot
-- belongs to the name only when a word starts behind it.
def nameTail : List Char → List Char
  | '.' :: c :: rest => if isWordStart c then '.' :: c :: nameTail rest else []
  | c :: rest => if isWordPart c then c :: nameTail rest else []
  | [] => []

-- The longest dotted name at the head of the characters, or nothing.
def nameHead : List Char → List Char
  | [] => []
  | c :: rest => if isWordStart c then c :: nameTail rest else []

-- The dotted name that a type expression starts with. Type arguments, call
-- arguments and array marks come after it and are dropped.
def typeName (text : String) : String :=
  String.ofList (nameHead (trimChars text.toList))

end ClassAtlas.Text
