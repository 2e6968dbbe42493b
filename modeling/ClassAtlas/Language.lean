namespace ClassAtlas

-- The languages whose trees can be surveyed.
inductive Language where
  | typescript
  | tsx
  | javascript
  | csharp
  | java
  | python
  deriving DecidableEq

namespace Language

def all : List Language :=
  [typescript, tsx, javascript, csharp, java, python]

def name : Language → String
  | typescript => "typescript"
  | tsx => "tsx"
  | javascript => "javascript"
  | csharp => "csharp"
  | java => "java"
  | python => "python"

-- Callers may use the name of a language or one of its short forms.
def ofId? (id : String) : Option Language :=
  if id = "typescript" ∨ id = "ts" then some typescript
  else if id = "tsx" then some tsx
  else if id = "javascript" ∨ id = "js" ∨ id = "jsx" then some javascript
  else if id = "csharp" ∨ id = "c-sharp" ∨ id = "cs" then some csharp
  else if id = "java" then some java
  else if id = "python" ∨ id = "py" then some python
  else none

-- The language of files with an extension, which is given without its dot.
def ofExtension? (extension : String) : Option Language :=
  if extension = "ts" ∨ extension = "mts" ∨ extension = "cts" then some typescript
  else if extension = "tsx" then some tsx
  else if extension = "js" ∨ extension = "jsx" ∨ extension = "mjs" ∨ extension = "cjs" then
    some javascript
  else if extension = "cs" then some csharp
  else if extension = "java" then some java
  else if extension = "py" ∨ extension = "pyi" then some python
  else none

-- In these languages an unqualified call can reach a method of the class around it.
def callsOwnMethods : Language → Bool
  | csharp | java => true
  | _ => false

end Language

end ClassAtlas
