import ClassAtlas.Aspect
import ClassAtlas.Json.Value
import ClassAtlas.Language

namespace ClassAtlas

-- Languages and aspects are written as tags. Only full names are tags, no short forms.
def Language.ofJson? (json : Json) : Option Language :=
  json.tag?.bind fun tag => Language.all.find? (fun language => language.name == tag)

def Aspect.ofJson? (json : Json) : Option Aspect :=
  json.tag?.bind fun tag => Aspect.all.find? (fun aspect => aspect.name == tag)

end ClassAtlas
