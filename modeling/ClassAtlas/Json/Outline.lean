import ClassAtlas.Json.Token

namespace ClassAtlas.Json

-- The top level of a JSON text: what stands directly inside its object or array. Of
-- each value only booleans are kept; others have to be well formed and no more.
inductive Outline where
  | object (members : List (String × Option Bool))
  | array (elements : List (Option Bool))

namespace Outline

inductive Frame where
  | object
  | array

-- What has to come next while a value is passed over.
inductive Due where
  | value
  | firstElement
  | firstKey
  | key
  | more

-- Passes over one value and gives what follows it. The frames are the objects and
-- arrays that are still open inside the value, the innermost first.
def skip? : Due → List Frame → List Token → Option (List Token)
  | .more, [], tokens => some tokens
  | .more, .array :: outer, .comma :: rest => skip? .value (.array :: outer) rest
  | .more, .array :: outer, .closeBracket :: rest => skip? .more outer rest
  | .more, .object :: outer, .comma :: rest => skip? .key (.object :: outer) rest
  | .more, .object :: outer, .closeBrace :: rest => skip? .more outer rest
  | .firstElement, .array :: outer, .closeBracket :: rest => skip? .more outer rest
  | .firstKey, .object :: outer, .closeBrace :: rest => skip? .more outer rest
  | .firstKey, frames, .string _ :: .colon :: rest => skip? .value frames rest
  | .key, frames, .string _ :: .colon :: rest => skip? .value frames rest
  | due, frames, token :: rest =>
      match due, token with
      | .value, .openBrace => skip? .firstKey (.object :: frames) rest
      | .firstElement, .openBrace => skip? .firstKey (.object :: frames) rest
      | .value, .openBracket => skip? .firstElement (.array :: frames) rest
      | .firstElement, .openBracket => skip? .firstElement (.array :: frames) rest
      | .value, .null | .value, .bool _ | .value, .number | .value, .string _ =>
          skip? .more frames rest
      | .firstElement, .null | .firstElement, .bool _ | .firstElement, .number
      | .firstElement, .string _ => skip? .more frames rest
      | _, _ => none
  | _, _, [] => none

-- One value of the top level.
def item? : List Token → Option (Option Bool × List Token)
  | .bool value :: rest => some (some value, rest)
  | tokens => (skip? .value [] tokens).map fun rest => (none, rest)

-- The elements of an array from the first one on, and what follows the bracket.
def elements? : Nat → List Token → Option (List (Option Bool) × List Token)
  | 0, _ => none
  | fuel + 1, tokens => do
      let (value, rest) ← item? tokens
      match rest with
      | .comma :: rest =>
          let (values, rest) ← elements? fuel rest
          return (value :: values, rest)
      | .closeBracket :: rest => return ([value], rest)
      | _ => none

-- The members of an object from the first one on. A key without a value as a string
-- is an error here, even when nobody asks for it.
def members? : Nat → List Token → Option (List (String × Option Bool) × List Token)
  | 0, _ => none
  | fuel + 1, .string (some key) :: .colon :: tokens => do
      let (value, rest) ← item? tokens
      match rest with
      | .comma :: rest =>
          let (members, rest) ← members? fuel rest
          return ((key, value) :: members, rest)
      | .closeBrace :: rest => return ([(key, value)], rest)
      | _ => none
  | _, _ => none

-- The outline of a text that holds one object or array and nothing else.
def ofTokens? (tokens : List Token) : Option Outline :=
  match tokens with
  | [.openBrace, .closeBrace] => some (.object [])
  | [.openBracket, .closeBracket] => some (.array [])
  | .openBrace :: rest =>
      match members? rest.length rest with
      | some (members, []) => some (.object members)
      | _ => none
  | .openBracket :: rest =>
      match elements? rest.length rest with
      | some (elements, []) => some (.array elements)
      | _ => none
  | _ => none

def ofText? (text : String) : Option Outline :=
  (Token.ofText? text).bind ofTokens?

end Outline

end ClassAtlas.Json
