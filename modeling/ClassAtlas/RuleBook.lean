import ClassAtlas.Catalog.CSharp
import ClassAtlas.Catalog.Java
import ClassAtlas.Catalog.JavaScript
import ClassAtlas.Catalog.Python
import ClassAtlas.Catalog.TypeScript
import ClassAtlas.Fault
import ClassAtlas.Grammar.CSharp
import ClassAtlas.Grammar.Java
import ClassAtlas.Grammar.JavaScript
import ClassAtlas.Grammar.Python
import ClassAtlas.Grammar.TypeScript
import ClassAtlas.Query.Match
import ClassAtlas.Query.Reader

namespace ClassAtlas

namespace Language

def grammar : Language → Grammar
  | typescript | tsx => .typescript
  | javascript => .javascript
  | csharp => .csharp
  | java => .java
  | python => .python

-- The query with which an aspect is looked for when nobody gives another one.
def query : Language → Aspect → Query
  | typescript | tsx => Catalog.typescript
  | javascript => Catalog.javascript
  | csharp => Catalog.csharp
  | java => Catalog.java
  | python => Catalog.python

def readQuery (language : Language) (text : String) : Except Defect Query :=
  Query.read language.grammar text

end Language

-- The queries for a language, aspect by aspect. An aspect can be left out, and its text
-- may turn out to be no query.
structure RuleBook where
  language : Language
  entry : Aspect → Option (Except Defect Query)

namespace RuleBook

def builtIn (language : Language) : RuleBook where
  language := language
  entry aspect := some (.ok (language.query aspect))

-- A rule book from texts and a reader for them. Of several texts for one aspect the last one
-- counts.
def ofTexts (read : Language → String → Except Defect Query) (language : Language)
    (texts : List (Aspect × String)) : RuleBook where
  language := language
  entry aspect :=
    (texts.reverse.find? (fun text => text.1 = aspect)).map fun text => read language text.2

def fault (book : RuleBook) (aspect : Aspect) (reason : String) : Fault :=
  .malformedQuery book.language.name aspect reason

def query (book : RuleBook) (aspect : Aspect) : Except Fault Query :=
  match book.entry aspect with
  | some (.ok query) => .ok query
  | some (.error defect) => .error (book.fault aspect defect.message)
  | none => .error (book.fault aspect "no pattern registered")

-- The texts of a book that are no queries.
def defects (book : RuleBook) : List Fault :=
  Aspect.all.filterMap fun aspect =>
    match book.entry aspect with
    | some (.error defect) => some (book.fault aspect defect.message)
    | _ => none

-- One fact for each match of the query for an aspect, in the order of the matches.
def facts (book : RuleBook) (aspect : Aspect) (read : Document → Match → α)
    (document : Document) : Except Fault (List α) :=
  match book.query aspect with
  | .ok query => .ok ((query.run document).map (read document))
  | .error fault => .error fault

end RuleBook

end ClassAtlas
