namespace ClassAtlas.Json

-- The words of a JSON text. The value of a number does not matter to any reader of
-- tokens; a string has no value when one of its escapes is half of a surrogate pair.
inductive Token where
  | openBrace
  | closeBrace
  | openBracket
  | closeBracket
  | colon
  | comma
  | null
  | bool (value : Bool)
  | number
  | string (value : Option String)

namespace Token

def isSpace (c : Char) : Bool :=
  c == ' ' || c == '\n' || c == '\t' || c == '\r'

-- A piece of a string: a character as it stands, or a code unit written as an escape.
inductive Piece where
  | char (value : Char)
  | unit (value : Nat)

def hexDigit? (c : Char) : Option Nat :=
  if c.isDigit then some (c.toNat - '0'.toNat)
  else if 'a' ≤ c ∧ c ≤ 'f' then some (c.toNat - 'a'.toNat + 10)
  else if 'A' ≤ c ∧ c ≤ 'F' then some (c.toNat - 'A'.toNat + 10)
  else none

def escape? : Char → Option Char
  | '"' => some '"'
  | '\\' => some '\\'
  | '/' => some '/'
  | 'b' => some '\x08'
  | 'f' => some '\x0c'
  | 'n' => some '\n'
  | 'r' => some '\r'
  | 't' => some '\t'
  | _ => none

def codeUnit? (a b c d : Char) : Option Nat := do
  let a ← hexDigit? a
  let b ← hexDigit? b
  let c ← hexDigit? c
  let d ← hexDigit? d
  return ((a * 16 + b) * 16 + c) * 16 + d

-- The pieces of a string whose opening quote has been read, and what follows the
-- closing one. Control characters must be escaped.
def pieces? : List Char → Option (List Piece × List Char)
  | '"' :: rest => some ([], rest)
  | '\\' :: 'u' :: a :: b :: c :: d :: rest => do
      let value ← codeUnit? a b c d
      let (pieces, rest) ← pieces? rest
      return (.unit value :: pieces, rest)
  | '\\' :: c :: rest => do
      let value ← escape? c
      let (pieces, rest) ← pieces? rest
      return (.char value :: pieces, rest)
  | c :: rest => do
      guard (0x20 ≤ c.toNat)
      let (pieces, rest) ← pieces? rest
      return (.char c :: pieces, rest)
  | [] => none

def isHighSurrogate (unit : Nat) : Bool :=
  0xD800 ≤ unit && unit ≤ 0xDBFF

def isLowSurrogate (unit : Nat) : Bool :=
  0xDC00 ≤ unit && unit ≤ 0xDFFF

-- Joins surrogate pairs. A half without its partner makes the string meaningless.
def join? : List Piece → Option (List Char)
  | [] => some []
  | .char c :: rest => (join? rest).map (c :: ·)
  | .unit high :: .unit low :: rest =>
      if isHighSurrogate high then
        if isLowSurrogate low then
          (join? rest).map
            (Char.ofNat (0x10000 + (high - 0xD800) * 0x400 + (low - 0xDC00)) :: ·)
        else none
      else if isLowSurrogate high then none
      else (join? (.unit low :: rest)).map (Char.ofNat high :: ·)
  | .unit value :: rest =>
      if isHighSurrogate value || isLowSurrogate value then none
      else (join? rest).map (Char.ofNat value :: ·)

-- At least one digit, and what follows the last.
def digits? : List Char → Option (List Char)
  | [] => none
  | c :: rest => if c.isDigit then some (rest.dropWhile Char.isDigit) else none

-- The integer part of a number has no leading zero.
def integer? : List Char → Option (List Char)
  | '0' :: rest => some rest
  | chars => digits? chars

def fraction? : List Char → Option (List Char)
  | '.' :: rest => digits? rest
  | chars => some chars

def exponent? : List Char → Option (List Char)
  | [] => some []
  | c :: rest =>
      if c == 'e' || c == 'E' then
        match rest with
        | '+' :: rest => digits? rest
        | '-' :: rest => digits? rest
        | _ => digits? rest
      else some (c :: rest)

def number? (chars : List Char) : Option (List Char) :=
  let unsigned := match chars with
    | '-' :: rest => rest
    | _ => chars
  (integer? unsigned).bind fun rest => (fraction? rest).bind exponent?

-- The token at the head of the characters and what follows it.
def next? : List Char → Option (Token × List Char)
  | '\x7b' :: rest => some (.openBrace, rest)
  | '\x7d' :: rest => some (.closeBrace, rest)
  | '[' :: rest => some (.openBracket, rest)
  | ']' :: rest => some (.closeBracket, rest)
  | ':' :: rest => some (.colon, rest)
  | ',' :: rest => some (.comma, rest)
  | 'n' :: 'u' :: 'l' :: 'l' :: rest => some (.null, rest)
  | 't' :: 'r' :: 'u' :: 'e' :: rest => some (.bool true, rest)
  | 'f' :: 'a' :: 'l' :: 's' :: 'e' :: rest => some (.bool false, rest)
  | '"' :: rest =>
      (pieces? rest).map fun (pieces, rest) =>
        (.string ((join? pieces).map String.ofList), rest)
  | chars => (number? chars).map fun rest => (.number, rest)

-- Every token takes at least one character, so as many steps as there are characters
-- are enough.
def scan? : Nat → List Char → Option (List Token)
  | 0, chars => if chars.isEmpty then some [] else none
  | fuel + 1, chars =>
      match chars.dropWhile isSpace with
      | [] => some []
      | chars => do
          let (token, rest) ← next? chars
          let tokens ← scan? fuel rest
          return token :: tokens

def ofText? (text : String) : Option (List Token) :=
  scan? text.toList.length text.toList

end Token

end ClassAtlas.Json
