namespace ClassAtlas

-- A call, as the class that makes it records it: the calling class, the method that is
-- called, and the type of the object it is called on.
structure Usage where
  caller : String
  method : String
  receiver : String
  deriving DecidableEq

-- A method of a class. Nobody has looked for its callers as long as they are unset.
structure MethodEntry where
  name : String
  callers : Option (List Usage)
  deriving DecidableEq

-- A class with the parents that it declares and the calls that it makes. The linked
-- parents are unset until the atlas is linked.
structure ClassEntry where
  name : String
  parents : List String
  linked : Option (List String)
  methods : List MethodEntry
  usages : List Usage
  deriving DecidableEq

structure FileEntry where
  path : String
  classes : List ClassEntry
  deriving DecidableEq

-- The classes of a project, file by file.
structure Atlas where
  files : List FileEntry
  deriving DecidableEq

namespace Atlas

-- Every class, in the order of the files and of the declarations in them.
def classes (atlas : Atlas) : List ClassEntry :=
  atlas.files.flatMap (·.classes)

def firstClass? (atlas : Atlas) (name : String) : Option ClassEntry :=
  atlas.classes.find? (fun entry => entry.name == name)

-- Files are never merged, not even when they have the same path.
def append (atlas : Atlas) (files : List FileEntry) : Atlas :=
  ⟨atlas.files ++ files⟩

end Atlas

end ClassAtlas
