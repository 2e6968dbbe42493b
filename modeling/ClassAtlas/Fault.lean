import ClassAtlas.Aspect
import ClassAtlas.Language

namespace ClassAtlas

-- The ways in which a file, or one aspect of it, can fail.
inductive Fault where
  | unsupportedLanguage (id : String)
  | malformedQuery (language : String) (aspect : Aspect) (reason : String)
  | noParser (language : String) (reason : String)
  | unparsed (path : String)
  deriving DecidableEq

namespace Fault

def message : Fault → String
  | unsupportedLanguage id => "Unsupported language: '" ++ id ++ "'"
  | malformedQuery language aspect reason =>
      "Malformed " ++ aspect.name ++ " query for " ++ language ++ ": " ++ reason
  | noParser language reason =>
      "Failed to set parser language for " ++ language ++ ": " ++ reason
  | unparsed path => "Failed to parse file: " ++ path

-- A malformed query only costs its own aspect. Every other fault costs the file.
def dropsFile : Fault → Bool
  | malformedQuery .. => false
  | _ => true

end Fault

def Language.resolve (id : String) : Except Fault Language :=
  match Language.ofId? id with
  | some language => .ok language
  | none => .error (.unsupportedLanguage id)

end ClassAtlas
