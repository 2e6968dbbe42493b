import ClassAtlas.Text.Blank

namespace ClassAtlas.Text

-- What follows `start`, when the text begins with it.
def after? (start text : String) : Option String :=
  (start.toList.isPrefixOf? text.toList).map String.ofList

-- The member that a text names on the current object.
def selfMember? (text : String) : Option String :=
  (after? "this." text).or (after? "self." text)

-- Drops the qualifier of a member of the current object, and blanks around it.
def unqualified (text : String) : String :=
  let text := trim text
  trim ((selfMember? text).getD text)

end ClassAtlas.Text
