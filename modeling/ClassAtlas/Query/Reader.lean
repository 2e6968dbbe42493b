import ClassAtlas.Grammar.Basic
import ClassAtlas.Query.Basic
import ClassAtlas.Query.Defect

namespace ClassAtlas.Query.Reader

-- How far a query has been read: the characters that are left, the captures that have
-- been given so far, and the conditions of the rule at hand.
structure State where
  rest : List Char
  captures : List String
  conditions : List Condition

-- A failure carries the characters from the place of the trouble on.
abbrev Reading := StateT State (Except (Trouble × List Char))

def fail (trouble : Trouble) (place : List Char) : Reading α :=
  throw (trouble, place)

def refuse : Reading α := do
  fail .form (← get).rest

def moveTo (rest : List Char) : Reading Unit :=
  modify fun state => { state with rest }

def isSpace (c : Char) : Bool :=
  c == ' ' || (9 ≤ c.toNat && c.toNat ≤ 13)

-- Leaves out white space and comments, which start at a semicolon and end with the line.
def dropSpace (inComment : Bool) : List Char → List Char
  | [] => []
  | c :: rest =>
      if inComment then dropSpace (c != '\n') rest
      else if isSpace c then dropSpace false rest
      else if c == ';' then dropSpace true rest
      else c :: rest

def skipSpace : Reading Unit :=
  modify fun state => { state with rest := dropSpace false state.rest }

def startsName (c : Char) : Bool :=
  c.isAlphanum || c == '_' || c == '-'

def continuesName (c : Char) : Bool :=
  startsName c || c == '.'

-- A name, which may have dots inside.
def name : Reading String := do
  match (← get).rest with
  | c :: rest =>
      if startsName c then
        moveTo (rest.dropWhile continuesName)
        return String.ofList (c :: rest.takeWhile continuesName)
      else refuse
  | [] => refuse

def unescape : Char → Char
  | 'n' => '\n'
  | 'r' => '\r'
  | 't' => '\t'
  | '0' => '\x00'
  | c => c

-- The characters of a string whose opening quote has been read, and what follows the
-- closing one. A string ends on the line on which it starts.
def quoted? : List Char → Option (List Char × List Char)
  | '"' :: rest => some ([], rest)
  | '\\' :: c :: rest => (quoted? rest).map fun (chars, rest) => (unescape c :: chars, rest)
  | c :: rest =>
      if c == '\n' then none else (quoted? rest).map fun (chars, rest) => (c :: chars, rest)
  | [] => none

def quoted : Reading String := do
  let here := (← get).rest
  match quoted? (here.drop 1) with
  | some (chars, rest) =>
      moveTo rest
      return String.ofList chars
  | none => fail .form here

-- Marks behind a pattern: a question mark makes it optional, and a name behind an at
-- sign captures what it finds.
def marks : Nat → Pattern → Reading Pattern
  | 0, pattern => return pattern
  | fuel + 1, pattern => do
      skipSpace
      match (← get).rest with
      | '?' :: rest =>
          moveTo rest
          marks fuel pattern.orNothing
      | '@' :: rest =>
          moveTo rest
          let capture ← name
          modify fun state => { state with captures := capture :: state.captures }
          marks fuel (pattern.named capture)
      | _ => return pattern

def withMarks (pattern : Pattern) : Reading Pattern := do
  marks ((← get).rest.length + 1) pattern

-- What a condition is about.
inductive Term where
  | capture (name : String)
  | text (value : String)

-- The terms of a condition up to its closing parenthesis. Only captures that have been
-- given before can be used.
def terms : Nat → Reading (List Term)
  | 0 => refuse
  | fuel + 1 => do
      skipSpace
      match (← get).rest with
      | ')' :: rest =>
          moveTo rest
          return []
      | '@' :: rest =>
          moveTo rest
          let capture ← name
          if (← get).captures.contains capture then
            return .capture capture :: (← terms fuel)
          else fail .capture rest
      | '"' :: _ =>
          let value ← quoted
          return .text value :: (← terms fuel)
      | _ =>
          let value ← name
          return .text value :: (← terms fuel)

-- The ranges of a character class whose opening bracket has been read.
def ranges? : List Char → Option (List (Char × Char))
  | [']'] => some []
  | low :: '-' :: high :: rest =>
      if high == ']' then none else (ranges? rest).map ((low, high) :: ·)
  | c :: rest => if c == ']' then none else (ranges? rest).map ((c, c) :: ·)
  | [] => none

-- The regular expressions of conditions ask for the first character of a text.
def startsIn? (expression : String) : Option TextTest :=
  match expression.toList with
  | '^' :: '[' :: rest => (ranges? rest).map .startsIn
  | _ => none

-- Conditions that are not known ask for nothing.
def addCondition (verb : String) (about : List Term) : Reading Unit := do
  let add (condition : Condition) : Reading Unit :=
    modify fun state => { state with conditions := state.conditions ++ [condition] }
  if verb = "eq?" then
    match about with
    | [.capture capture, .text value] => add ⟨capture, .equals value⟩
    | _ => refuse
  else if verb = "match?" then
    match about with
    | [.capture capture, .text value] =>
        match startsIn? value with
        | some test => add ⟨capture, test⟩
        | none => refuse
    | _ => refuse
  else return

def condition : Reading Unit := do
  let verb ← name
  match (← get).rest with
  | '?' :: rest =>
      moveTo rest
      let about ← terms (rest.length + 1)
      addCondition (verb ++ "?") about
  | '!' :: rest =>
      moveTo rest
      let about ← terms (rest.length + 1)
      addCondition (verb ++ "!") about
  | _ => refuse

-- What stands next in a list of patterns: a pattern, a condition, or the end of the list.
inductive Item where
  | pattern (value : Pattern)
  | condition
  | close

mutual

-- One item. Parentheses that start with another pattern only group it.
def item (grammar : Grammar) : Nat → Reading Item
  | 0 => refuse
  | fuel + 1 => do
      match (← get).rest with
      | [] => refuse
      | ')' :: _ => return .close
      | ']' :: _ => return .close
      | '[' :: rest =>
          moveTo rest
          skipSpace
          let branches ← items grammar fuel ']'
          if branches.isEmpty then refuse
          else
            moveTo ((← get).rest.drop 1)
            return .pattern (← withMarks (.oneOf branches))
      | '(' :: rest =>
          moveTo rest
          skipSpace
          inside grammar fuel
      | '_' :: rest =>
          moveTo rest
          return .pattern (← withMarks (.node .any []))
      | '"' :: _ =>
          let text ← quoted
          return .pattern (← withMarks (.node (.token text) []))
      | _ => inField grammar fuel

-- What stands behind an opening parenthesis.
def inside (grammar : Grammar) : Nat → Reading Item
  | 0 => refuse
  | fuel + 1 => do
      let here := (← get).rest
      match here with
      | '#' :: rest =>
          moveTo rest
          condition
          skipSpace
          return .condition
      | '(' :: _ => group grammar fuel
      | '[' :: _ => group grammar fuel
      | '"' :: _ => group grammar fuel
      | _ =>
          let kind ← name
          let test ←
            if kind = "_" then pure NodeTest.named
            else if grammar.hasKind kind then pure (NodeTest.kind kind)
            else fail .kind here
          skipSpace
          let children ← items grammar fuel ')'
          moveTo ((← get).rest.drop 1)
          return .pattern (← withMarks (.node test children))

def group (grammar : Grammar) : Nat → Reading Item
  | 0 => refuse
  | fuel + 1 => do
      match ← items grammar fuel ')' with
      | [pattern] =>
          moveTo ((← get).rest.drop 1)
          return .pattern (← withMarks pattern)
      | _ => refuse

-- A pattern behind the name of a field. The name is checked after the pattern.
def inField (grammar : Grammar) : Nat → Reading Item
  | 0 => refuse
  | fuel + 1 => do
      let here := (← get).rest
      let field ← name
      skipSpace
      match (← get).rest with
      | ':' :: rest =>
          moveTo rest
          skipSpace
          match ← item grammar fuel with
          | .pattern pattern =>
              if grammar.hasField field then return .pattern (pattern.inField field)
              else fail .field here
          | _ => refuse
      | _ => fail .form here

-- The patterns up to a closing mark, which is left to be read.
def items (grammar : Grammar) : Nat → Char → Reading (List Pattern)
  | 0, _ => refuse
  | fuel + 1, closing => do
      match ← item grammar fuel with
      | .pattern pattern => return pattern :: (← items grammar fuel closing)
      | .condition => items grammar fuel closing
      | .close => if (← get).rest.head? = some closing then return [] else refuse

end

-- The rules of a query. Conditions that stand by themselves belong to no rule.
def rules (grammar : Grammar) (fuel : Nat) : Nat → Reading (List Rule)
  | 0 => refuse
  | count + 1 => do
      if (← get).rest.isEmpty then return []
      else
        modify fun state => { state with conditions := [] }
        match ← item grammar fuel with
        | .pattern pattern =>
            let conditions := (← get).conditions
            return ⟨pattern, conditions⟩ :: (← rules grammar fuel count)
        | .condition => rules grammar fuel count
        | .close => refuse

end ClassAtlas.Query.Reader

namespace ClassAtlas

-- The query that a text describes under a grammar. Reading an item takes at most three
-- steps and at least one character, which bounds the steps.
def Query.read (grammar : Grammar) (text : String) : Except Defect Query :=
  let chars := text.toList
  let reading := do
    Query.Reader.skipSpace
    Query.Reader.rules grammar (4 * chars.length + 4) (chars.length + 1)
  match reading.run ⟨chars, [], []⟩ with
  | .ok (rules, _) => .ok rules
  | .error (trouble, place) =>
      .error ⟨trouble, text, text.utf8ByteSize - (String.ofList place).utf8ByteSize⟩

end ClassAtlas
