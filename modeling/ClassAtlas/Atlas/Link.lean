import ClassAtlas.Atlas.Table

namespace ClassAtlas

-- Records one more caller of a method.
def MethodEntry.addCaller (usage : Usage) (method : MethodEntry) : MethodEntry :=
  { method with callers := some (method.callers.getD [] ++ [usage]) }

namespace Atlas

-- The name that a declared parent stands for. A parent outside the atlas stands for
-- itself.
def parentName (atlas : Atlas) (table : Table ClassPlace) (parent : String) : String :=
  match (table[parent]?).bind atlas.class? with
  | some entry => entry.name
  | none => parent

-- How many of the declared parents are classes of the atlas.
def knownParents (atlas : Atlas) (table : Table ClassPlace) : Nat :=
  (atlas.classes.flatMap (·.parents)).countP (fun parent => (table[parent]?).isSome)

-- What the parents of each class stand for, file by file.
def parentNames (atlas : Atlas) (table : Table ClassPlace) : List (List (List String)) :=
  atlas.files.map fun file =>
    file.classes.map fun entry => entry.parents.map (atlas.parentName table)

-- Writes each value into the item that it stands beside. Items without a value are kept.
def writeBack (write : α → β → α) : List α → List β → List α
  | item :: items, value :: values => write item value :: writeBack write items values
  | items, _ => items

def writeParents (atlas : Atlas) (names : List (List (List String))) : Atlas :=
  let inClass (entry : ClassEntry) (names : List String) : ClassEntry :=
    { entry with linked := some names }
  let inFile (file : FileEntry) (names : List (List String)) : FileEntry :=
    { file with classes := writeBack inClass file.classes names }
  ⟨writeBack inFile atlas.files names⟩

-- Links each class with its parents, and counts the parents that are in the atlas. The
-- parents of a parent are not followed. Nothing is written before all names are known.
def linkParents (atlas : Atlas) : Atlas × Nat :=
  let table := atlas.classTable
  (atlas.writeParents (atlas.parentNames table), atlas.knownParents table)

-- The method that a usage reaches. A usage without a caller or a method name reaches
-- nothing.
def target? (table : Table MethodPlace) (usage : Usage) : Option MethodPlace :=
  if usage.caller = "" ∨ usage.method = "" then none
  else table.method? usage.receiver usage.method

-- The usages that reach a method of the atlas, each with the place it reaches.
def links (atlas : Atlas) : List (MethodPlace × Usage) :=
  let table := atlas.methodTable
  (atlas.classes.flatMap (·.usages)).filterMap fun usage =>
    (target? table usage).map fun place => (place, usage)

-- Adds every link to the callers of its method, and counts the links. Linking again
-- adds them again.
def linkCalls (atlas : Atlas) : Atlas × Nat :=
  let links := atlas.links
  (links.foldl (fun atlas link => atlas.modifyMethod link.1 (.addCaller link.2)) atlas,
    links.length)

end Atlas

end ClassAtlas
