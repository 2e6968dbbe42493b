import ClassAtlas.Pattern.Basic

namespace ClassAtlas

-- What the text of a captured node must look like.
inductive TextTest where
  | equals (text : String)
  | startsIn (ranges : List (Char × Char))

structure Condition where
  capture : String
  test : TextTest

-- A pattern with the conditions on what it captures.
structure Rule where
  pattern : Pattern
  conditions : List Condition

abbrev Query := List Rule

end ClassAtlas
