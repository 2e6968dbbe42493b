import ClassAtlas.Atlas.Basic
import ClassAtlas.Json.Value

namespace ClassAtlas

open Json

def Usage.toJson (usage : Usage) : Json :=
  .object [("classUsedIn", .string usage.caller), ("methodName", .string usage.method),
    ("objectType", .string usage.receiver)]

-- A field that is unset is left out.
def MethodEntry.toJson (method : MethodEntry) : Json :=
  .object (("name", .string method.name) ::
    match method.callers with
    | none => []
    | some callers => [("usedIn", .array (callers.map Usage.toJson))])

def ClassEntry.toJson (entry : ClassEntry) : Json :=
  .object ([("name", .string entry.name), ("inheritance", .array (entry.parents.map .string))] ++
    (match entry.linked with
      | none => []
      | some linked => [("parentClasses", .array (linked.map .string))]) ++
    [("methods", .array (entry.methods.map MethodEntry.toJson)),
      ("methodsUsed", .array (entry.usages.map Usage.toJson))])

def FileEntry.toJson (file : FileEntry) : Json :=
  .object [("path", .string file.path),
    ("details", .object [("classes", .array (file.classes.map ClassEntry.toJson))])]

def Atlas.toJson (atlas : Atlas) : Json :=
  .object [("files", .array (atlas.files.map FileEntry.toJson))]

def Usage.ofJson? (json : Json) : Option Usage := do
  match ← json.fields? ["classUsedIn", "methodName", "objectType"] with
  | [caller, method, receiver] =>
      return ⟨← required? string? caller, ← required? string? method,
        ← required? string? receiver⟩
  | _ => none

def MethodEntry.ofJson? (json : Json) : Option MethodEntry := do
  match ← json.fields? ["name", "usedIn"] with
  | [name, callers] =>
      return ⟨← required? string? name, ← optional? (list? Usage.ofJson?) callers⟩
  | _ => none

def ClassEntry.ofJson? (json : Json) : Option ClassEntry := do
  match ← json.fields? ["name", "inheritance", "parentClasses", "methods", "methodsUsed"] with
  | [name, parents, linked, methods, usages] =>
      return ⟨← required? string? name, ← required? (list? string?) parents,
        ← optional? (list? string?) linked, ← required? (list? MethodEntry.ofJson?) methods,
        ← required? (list? Usage.ofJson?) usages⟩
  | _ => none

-- The classes of a file stand in a record of their own.
def FileEntry.classes? (json : Json) : Option (List ClassEntry) := do
  match ← json.fields? ["classes"] with
  | [classes] => required? (list? ClassEntry.ofJson?) classes
  | _ => none

def FileEntry.ofJson? (json : Json) : Option FileEntry := do
  match ← json.fields? ["path", "details"] with
  | [path, details] =>
      return ⟨← required? string? path, ← required? FileEntry.classes? details⟩
  | _ => none

def Atlas.ofJson? (json : Json) : Option Atlas := do
  match ← json.fields? ["files"] with
  | [files] => return ⟨← required? (list? FileEntry.ofJson?) files⟩
  | _ => none

end ClassAtlas
