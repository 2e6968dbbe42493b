import ClassAtlas.Json.Outline

namespace ClassAtlas

-- What a survey does besides collecting entries. Working in parallel never shows in
-- the report.
structure Settings where
  parallel : Bool
  linkParents : Bool
  linkCalls : Bool
  deriving DecidableEq

namespace Settings

def default : Settings := ⟨true, true, true⟩

-- The setting that a key names among the members: on when it is left out, and an error
-- when it is given twice or is not a boolean.
def flag? (members : List (String × Option Bool)) (key : String) : Option Bool :=
  match members.filter (fun entry => entry.1 == key) with
  | [] => some true
  | [(_, value)] => value
  | _ => none

-- Settings are an object with any of the three keys, or an array of their values in
-- order.
def ofOutline? : Json.Outline → Option Settings
  | .object members => do
      let parallel ← flag? members "parallel"
      let linkParents ← flag? members "resolve_inheritance"
      let linkCalls ← flag? members "resolve_method_usages"
      return ⟨parallel, linkParents, linkCalls⟩
  | .array [] => some default
  | .array [some parallel] => some ⟨parallel, true, true⟩
  | .array [some parallel, some linkParents] => some ⟨parallel, linkParents, true⟩
  | .array [some parallel, some linkParents, some linkCalls] =>
      some ⟨parallel, linkParents, linkCalls⟩
  | .array _ => none

def ofText? (text : String) : Option Settings :=
  (Json.Outline.ofText? text).bind ofOutline?

end Settings

end ClassAtlas
