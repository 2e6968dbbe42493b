namespace ClassAtlas

-- A JSON value. A number is an integer over a power of ten; the members of an object
-- keep the order in which they are written.
inductive Json where
  | null
  | bool (value : Bool)
  | number (digits : Int) (places : Nat)
  | string (value : String)
  | array (elements : List Json)
  | object (members : List (String × Json))
  deriving Inhabited

namespace Json

def nat (value : Nat) : Json :=
  .number value 0

def bool? : Json → Option Bool
  | .bool value => some value
  | _ => none

def string? : Json → Option String
  | .string value => some value
  | _ => none

-- Reads every element of an array, or nothing if one of them cannot be read.
def list? (read : Json → Option α) : Json → Option (List α)
  | .array elements => elements.mapM read
  | _ => none

-- Reads a field that may be left out or null.
def optional? (read : Json → Option α) : Option Json → Option (Option α)
  | none => some none
  | some .null => some none
  | some value => (read value).map some

def required? (read : Json → Option α) : Option Json → Option α
  | none => none
  | some value => read value

def member? (members : List (String × Json)) (key : String) : Option Json :=
  (members.find? (fun entry => entry.1 == key)).map (·.2)

-- No two members carry the same one of the given keys.
def keysOnce (keys : List String) (members : List (String × Json)) : Bool :=
  keys.all fun key => (members.filter (fun entry => entry.1 == key)).length ≤ 1

-- The fields of a record, one answer for each key. A record is written as an object,
-- whose other members are ignored, or as an array of its fields in order, where
-- fields may be missing at the end.
def fields? (keys : List String) : Json → Option (List (Option Json))
  | .object members =>
      if keysOnce keys members then some (keys.map (member? members)) else none
  | .array elements =>
      if elements.length ≤ keys.length then
        some (elements.map some ++ List.replicate (keys.length - elements.length) none)
      else none
  | _ => none

-- A tag is a string, or an object whose only member has the tag as its key and null
-- as its value.
def tag? : Json → Option String
  | .string tag => some tag
  | .object [(tag, .null)] => some tag
  | _ => none

end Json

end ClassAtlas
