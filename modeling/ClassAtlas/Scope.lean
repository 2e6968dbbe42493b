import ClassAtlas.Fact.Binding
import ClassAtlas.Language

namespace ClassAtlas

-- What a call can see of the class around it.
structure Scope where
  language : Language
  className : String
  superclass : Option String
  bindings : List Binding

namespace Scope

-- The later of two bindings, the second one on a tie.
def later (best other : Binding) : Binding :=
  if best.offset ≤ other.offset then other else best

-- The binding with the greatest offset, the last of several.
def latest? : List Binding → Option Binding
  | [] => none
  | first :: rest => some (rest.foldl later first)

-- The type that a name has at an offset: that of its nearest binding before it, or of
-- its first binding when all come later.
def typeOf? (scope : Scope) (name : String) (offset : Nat) : Option String :=
  let same := scope.bindings.filter (fun binding => binding.name == name)
  ((latest? (same.filter (fun binding => binding.offset ≤ offset))).or same.head?).map (·.type)

-- The type of a call without a receiver.
def implicitType (scope : Scope) : String :=
  if scope.language.callsOwnMethods then scope.className else ""

-- The type of the object that an expression creates.
def created? (receiver : String) : Option String :=
  ((Text.after? "new " receiver).map Text.typeName).filter (· ≠ "")

-- The type of a receiver that is not blank. What cannot be typed stands for itself.
def explicitType (scope : Scope) (receiver : String) (offset : Nat) : String :=
  if receiver = "this" ∨ receiver = "self" then scope.className
  else if receiver = "super" ∨ receiver = "base" ∨ receiver = "super()" then
    scope.superclass.getD scope.className
  else match Text.selfMember? receiver with
    | some member => (scope.typeOf? (Text.trim member) offset).getD receiver
    | none =>
        match created? receiver with
        | some type => type
        | none =>
            if Text.isWord receiver.toList then (scope.typeOf? receiver offset).getD receiver
            else receiver

-- The type of the object that a call at an offset is made on.
def receiverType (scope : Scope) (receiver : Option String) (offset : Nat) : String :=
  match (receiver.map Text.trim).filter (· ≠ "") with
  | none => scope.implicitType
  | some receiver => scope.explicitType receiver offset

end Scope

end ClassAtlas
