import ClassAtlas.Atlas.Basic

namespace ClassAtlas

-- The place of a class: the position of its file, and its position there.
structure ClassPlace where
  file : Nat
  index : Nat
  deriving DecidableEq

structure MethodPlace where
  file : Nat
  index : Nat
  method : Nat
  deriving DecidableEq

namespace Atlas

-- Every class with its place.
def placedClasses (atlas : Atlas) : List (ClassPlace × ClassEntry) :=
  atlas.files.zipIdx.flatMap fun (file, i) =>
    file.classes.zipIdx.map fun (entry, j) => (⟨i, j⟩, entry)

-- Every method with its place and the class that declares it.
def placedMethods (atlas : Atlas) : List (MethodPlace × ClassEntry × MethodEntry) :=
  atlas.placedClasses.flatMap fun (place, entry) =>
    entry.methods.zipIdx.map fun (method, k) => (⟨place.file, place.index, k⟩, entry, method)

def class? (atlas : Atlas) (place : ClassPlace) : Option ClassEntry :=
  (atlas.files[place.file]?).bind fun file => file.classes[place.index]?

def method? (atlas : Atlas) (place : MethodPlace) : Option MethodEntry :=
  (atlas.class? ⟨place.file, place.index⟩).bind fun entry => entry.methods[place.method]?

-- Changes the method at a place and nothing else.
def modifyMethod (atlas : Atlas) (place : MethodPlace) (change : MethodEntry → MethodEntry) :
    Atlas :=
  ⟨atlas.files.modify place.file fun file =>
    { file with classes := file.classes.modify place.index fun entry =>
      { entry with methods := entry.methods.modify place.method change } }⟩

end Atlas

end ClassAtlas
