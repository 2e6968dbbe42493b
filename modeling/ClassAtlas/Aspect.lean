namespace ClassAtlas

-- What is looked for in a tree. Each aspect has its own query.
inductive Aspect where
  | classes
  | methods
  | calls
  | heritage
  | declarations
  deriving DecidableEq

namespace Aspect

def all : List Aspect :=
  [classes, methods, calls, heritage, declarations]

def name : Aspect → String
  | classes => "class"
  | methods => "method"
  | calls => "method-usage"
  | heritage => "inheritance"
  | declarations => "declared-type"

end Aspect

end ClassAtlas
