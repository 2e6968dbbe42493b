import Std.Data.HashMap
import ClassAtlas.Atlas.Place

namespace ClassAtlas

-- A table from names to places. A name that is declared again gets its latest place.
abbrev Table (α : Type) := Std.HashMap String α

namespace Table

def ofEntries (entries : List (String × α)) : Table α :=
  entries.foldl (fun table entry => table.insert entry.1 entry.2) ∅

end Table

namespace Atlas

def classTable (atlas : Atlas) : Table ClassPlace :=
  Table.ofEntries (atlas.placedClasses.map fun (place, entry) => (entry.name, place))

-- Methods are known by one name that is put together from those of class and method.
def methodName (owner method : String) : String :=
  owner ++ "." ++ method

def methodTable (atlas : Atlas) : Table MethodPlace :=
  Table.ofEntries (atlas.placedMethods.map fun (place, entry, method) =>
    (methodName entry.name method.name, place))

end Atlas

-- The place of the method that a class and a method name stand for.
def Table.method? (table : Table MethodPlace) (owner method : String) : Option MethodPlace :=
  table[Atlas.methodName owner method]?

end ClassAtlas
