import ClassAtlas.Atlas.Basic
import ClassAtlas.Fact.Call
import ClassAtlas.Fact.Heritage
import ClassAtlas.RuleBook
import ClassAtlas.Scope

namespace ClassAtlas

-- Everything that is found in one document.
structure Facts where
  classes : List ClassDecl
  methods : List MethodDecl
  heritage : List Heritage
  calls : List Call
  bindings : List Binding

namespace Facts

-- An aspect whose query is missing or malformed has no facts.
def found (facts : Except Fault (List α)) : List α :=
  facts.toOption.getD []

def gather (book : RuleBook) (document : Document) : Facts where
  classes := found (book.facts .classes ClassDecl.ofMatch document)
  methods := found (book.facts .methods MethodDecl.ofMatch document)
  heritage := found (book.facts .heritage Heritage.ofMatch document)
  calls := found (book.facts .calls Call.ofMatch document)
  bindings := (found (book.facts .declarations Binding.ofMatch document)).flatten

-- The class that owns what stands at an offset.
def owner? (facts : Facts) (offset : Nat) : Option Nat :=
  Span.innermost? (facts.classes.map (·.span)) offset

end Facts

-- What has been collected for a class so far: its entry, and what its calls can see.
structure Draft where
  entry : ClassEntry
  superclass : Option String
  bindings : List Binding

namespace Draft

def ofDecl (decl : ClassDecl) : Draft where
  entry := ⟨decl.name, [], none, [], []⟩
  superclass := none
  bindings := []

-- Of several clauses the first one with a superclass decides.
def addHeritage (draft : Draft) (clause : Heritage) : Draft :=
  { draft with
    entry := { draft.entry with parents := draft.entry.parents ++ clause.parents }
    superclass := draft.superclass.or clause.superclass }

def addMethod (draft : Draft) (method : MethodDecl) : Draft :=
  { draft with
    entry := { draft.entry with methods := draft.entry.methods ++ [⟨method.name, none⟩] } }

def addBinding (draft : Draft) (binding : Binding) : Draft :=
  { draft with bindings := draft.bindings ++ [binding] }

def scope (draft : Draft) (language : Language) : Scope where
  language := language
  className := draft.entry.name
  superclass := draft.superclass
  bindings := draft.bindings

-- The receiver of a call gets the type that the draft gives it at that time.
def addCall (language : Language) (draft : Draft) (call : Call) : Draft :=
  let type := (draft.scope language).receiverType call.receiver call.offset
  { draft with
    entry := { draft.entry with
      usages := draft.entry.usages ++ [⟨draft.entry.name, call.name, type⟩] } }

end Draft

namespace Facts

-- Hands facts of one sort out to the classes that own them, one after the other. Facts
-- outside every class are dropped.
def handOut (facts : Facts) (place : α → Nat) (add : Draft → α → Draft) (items : List α)
    (drafts : List Draft) : List Draft :=
  items.foldl (fun drafts item =>
    match facts.owner? (place item) with
    | some owner => drafts.modify owner (add · item)
    | none => drafts) drafts

-- Calls come last, when all that they can see is known.
def drafts (facts : Facts) (language : Language) : List Draft :=
  facts.handOut (·.offset) (.addCall language) facts.calls <|
    facts.handOut (·.offset) .addBinding facts.bindings <|
      facts.handOut (·.span.start) .addMethod facts.methods <|
        facts.handOut (·.offset) .addHeritage facts.heritage <|
          facts.classes.map .ofDecl

def classEntries (facts : Facts) (language : Language) : List ClassEntry :=
  (facts.drafts language).map (·.entry)

end Facts

-- The entry of a file and the faults of the queries that could not be run on it.
structure Extraction where
  entry : FileEntry
  faults : List Fault

namespace Extraction

-- The order in which the aspects of a file are looked for.
def order : List Aspect :=
  [.classes, .methods, .heritage, .calls, .declarations]

def fault? (book : RuleBook) (aspect : Aspect) : Option Fault :=
  match book.query aspect with
  | .ok _ => none
  | .error fault => some fault

def ofDocument (language : Language) (book : RuleBook) (path : String) (document : Document) :
    Extraction where
  entry := ⟨path, (Facts.gather book document).classEntries language⟩
  faults := order.filterMap (fault? book)

end Extraction

-- A file with the language that its owner gives for it, and the tree that a parser made,
-- if it made one.
structure SourceFile where
  path : String
  language : String
  source : String
  tree : Option Node

-- Reads a file that is written in a language by a rule book, which may be for another one. No
-- query costs the file.
def SourceFile.extractWith (file : SourceFile) (language : Language) (book : RuleBook) :
    Except Fault Extraction :=
  match file.tree with
  | some root => .ok (Extraction.ofDocument language book file.path ⟨file.source, root⟩)
  | none => .error (.unparsed file.path)

-- A file is dropped when its language is not known or there is no tree for it. Every known
-- language is taken to have a parser, so that `Fault.noParser` never comes up here.
def SourceFile.extract (file : SourceFile) : Except Fault Extraction := do
  let language ← Language.resolve file.language
  file.extractWith language (.builtIn language)

end ClassAtlas
