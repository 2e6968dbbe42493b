import ClassAtlas.Fact.Declaration
import ClassAtlas.Text.Blank

namespace ClassAtlas

-- A call with the name of what it calls, the rows of that name, and the text of the
-- object it is called on. The offset tells which class makes the call.
structure Call where
  name : String
  arguments : List String
  startRow : Nat
  stopRow : Nat
  receiver : Option String
  offset : Nat
  deriving DecidableEq

namespace Call

-- A receiver of blanks only is none.
def receiver? (document : Document) (found : Match) : Option String :=
  ((found.first? "method.object").map fun node => Text.trim (document.text node)).filter (· ≠ "")

def ofMatch (document : Document) (found : Match) : Call :=
  let callee := found.first? "method.name"
  { name := found.text document "method.name"
    arguments := (found.all "method.arg").map document.text
    startRow := (callee.map document.startRow).getD 0
    stopRow := (callee.map document.stopRow).getD 0
    receiver := receiver? document found
    offset := (((found.first? "method.call").or callee).map (·.start)).getD 0 }

end Call

end ClassAtlas
