import ClassAtlas.Proofs.Assembly
import ClassAtlas.Proofs.RuleBook
import ClassAtlas.Proofs.Scope
import ClassAtlas.Proofs.Tree.WellFormed

namespace ClassAtlas

namespace ClassEntry

-- Both entries have one usage for each of the calls, in order, with the names of the class and
-- of what is called. The types agree wherever they are settled.
def UsagesAgree (settled : Call → Prop) (calls : List Call) (entry other : ClassEntry) : Prop :=
  ∃ type type' : Call → String,
    entry.usages = calls.map (fun call => ⟨entry.name, call.name, type call⟩) ∧
    other.usages = calls.map (fun call => ⟨entry.name, call.name, type' call⟩) ∧
    ∀ call ∈ calls, settled call → type call = type' call

-- How far two entries of a class with the same calls differ at most when one aspect is looked
-- for in another way.
def AgreeBut (calls : List Call) (entry other : ClassEntry) : Aspect → Prop
  | .classes => True
  | .methods => other = { entry with methods := other.methods }
  | .calls => other = { entry with usages := other.usages }
  | .heritage =>
      other = { entry with parents := other.parents, usages := other.usages } ∧
        UsagesAgree (fun call => ¬ Scope.OnSuper call.receiver) calls entry other
  | .declarations =>
      other = { entry with usages := other.usages } ∧
        UsagesAgree (fun _ => False) calls entry other

end ClassEntry

namespace Facts

-- Facts that are the same apart from those of one aspect.
structure AgreeBut (aspect : Aspect) (facts other : Facts) : Prop where
  classes : aspect ≠ .classes → other.classes = facts.classes
  methods : aspect ≠ .methods → other.methods = facts.methods
  calls : aspect ≠ .calls → other.calls = facts.calls
  heritage : aspect ≠ .heritage → other.heritage = facts.heritage
  bindings : aspect ≠ .declarations → other.bindings = facts.bindings

theorem agreeBut_gather {book other : RuleBook} {aspect : Aspect}
    (hagree : ∀ same, same ≠ aspect → other.usable? same = book.usable? same)
    (document : Document) : AgreeBut aspect (gather book document) (gather other document) := by
  have hhits (same : Aspect) (hne : aspect ≠ same) :
      other.hits same document = book.hits same document := by
    rw [RuleBook.hits, hagree same hne.symm, RuleBook.hits]
  simp only [gather_eq]
  constructor <;> intro hne <;> simp only [hhits _ hne]

section Congruence

variable {α : Type} {facts other : Facts} (hclasses : other.classes = facts.classes)

include hclasses

-- Who owns a fact depends on the classes alone.
theorem owned_congr (owner : Nat) (place : α → Nat) (items : List α) :
    other.owned owner place items = facts.owned owner place items := by
  have howner : other.owner? = facts.owner? := by
    funext offset
    rw [owner?, hclasses, owner?]
  simp only [owned, howner]

theorem usageOf_congr (hheritage : other.heritage = facts.heritage)
    (hbindings : other.bindings = facts.bindings) (language : Language) (owner : Nat)
    (decl : ClassDecl) : other.usageOf language owner decl = facts.usageOf language owner decl := by
  funext call
  simp only [usageOf, scope, owned_congr hclasses, hheritage, hbindings]

-- The same calls become usages that can differ in their types only.
theorem usagesAgree_entryOf (hcalls : other.calls = facts.calls) (language : Language)
    (owner : Nat) (decl : ClassDecl) {settled : Call → Prop}
    (hsettled : ∀ call, settled call →
      (facts.usageOf language owner decl call).receiver =
        (other.usageOf language owner decl call).receiver) :
    ClassEntry.UsagesAgree settled (facts.owned owner (·.offset) facts.calls)
      (facts.entryOf language owner decl) (other.entryOf language owner decl) := by
  have husages : (other.entryOf language owner decl).usages =
      (facts.owned owner (·.offset) facts.calls).map (other.usageOf language owner decl) := by
    simp only [entryOf, owned_congr hclasses, hcalls]
  exact ⟨fun call => (facts.usageOf language owner decl call).receiver,
    fun call => (other.usageOf language owner decl call).receiver, rfl, husages,
    fun call _ => hsettled call⟩

end Congruence

-- Each aspect reaches its own part of an entry, and through the receivers' types no more than
-- bindings and clauses have to say about them.
theorem AgreeBut.entryOf {aspect : Aspect} {facts other : Facts}
    (hagree : AgreeBut aspect facts other) (haspect : aspect ≠ .classes) (language : Language)
    (owner : Nat) (decl : ClassDecl) :
    ClassEntry.AgreeBut (facts.owned owner (·.offset) facts.calls)
      (facts.entryOf language owner decl) (other.entryOf language owner decl) aspect := by
  have hclasses := hagree.classes haspect
  have howned {α : Type} := owned_congr (α := α) hclasses owner
  cases aspect with
  | classes => exact absurd rfl haspect
  | methods =>
      have husage := usageOf_congr hclasses (hagree.heritage (by decide))
        (hagree.bindings (by decide)) language owner decl
      simp only [ClassEntry.AgreeBut, Facts.entryOf, howned, husage, hagree.heritage (by decide),
        hagree.calls (by decide)]
  | calls =>
      simp only [ClassEntry.AgreeBut, Facts.entryOf, howned, hagree.heritage (by decide),
        hagree.methods (by decide)]
  | heritage =>
      refine ⟨?_, usagesAgree_entryOf hclasses (hagree.calls (by decide)) language owner decl ?_⟩
      · simp only [Facts.entryOf, howned, hagree.methods (by decide)]
      · intro call hsuper
        have hscope : other.scope language owner decl =
            { facts.scope language owner decl with
              superclass := (other.scope language owner decl).superclass } := by
          simp only [scope, howned, hagree.bindings (by decide)]
        have htype := Scope.receiverType_of_not_onSuper hsuper (facts.scope language owner decl)
          (other.scope language owner decl).superclass call.offset
        rw [← hscope] at htype
        exact htype.symm
  | declarations =>
      refine ⟨?_, usagesAgree_entryOf hclasses (hagree.calls (by decide)) language owner decl ?_⟩
      · simp only [Facts.entryOf, howned, hagree.methods (by decide), hagree.heritage (by decide)]
      · intro call hnever
        exact hnever.elim

end Facts

namespace Extraction

variable {book other : RuleBook} {aspect : Aspect}
  (hagree : ∀ same, same ≠ aspect → other.usable? same = book.usable? same)
  (haspect : aspect ≠ .classes) (language : Language) (path : String) (document : Document)

include hagree haspect

theorem agreeBut_ofDocument {owner : Nat} {entry entry' : ClassEntry}
    (hentry : (ofDocument language book path document).entry.classes[owner]? = some entry)
    (hentry' : (ofDocument language other path document).entry.classes[owner]? = some entry') :
    let facts := Facts.gather book document
    ClassEntry.AgreeBut (facts.owned owner (·.offset) facts.calls) entry entry' aspect := by
  have hfacts := Facts.agreeBut_gather hagree document
  simp only [ofDocument, Facts.classEntries_getElem?, hfacts.classes haspect] at hentry hentry'
  obtain ⟨decl, hdecl, rfl⟩ := Option.map_eq_some_iff.mp hentry
  obtain ⟨_, hdecl', rfl⟩ := Option.map_eq_some_iff.mp hentry'
  obtain rfl := Option.some.inj (hdecl.symm.trans hdecl')
  exact hfacts.entryOf haspect language owner decl

theorem classes_length_ofDocument :
    (ofDocument language other path document).entry.classes.length =
      (ofDocument language book path document).entry.classes.length := by
  have hclasses := (Facts.agreeBut_gather hagree document).classes haspect
  simp only [ofDocument, Facts.classEntries_eq_mapIdx, List.length_mapIdx, hclasses]

end Extraction

-- A class `A` that extends a class `B` and calls a method `n` of its superclass.
def superDocument : Document where
  source := "class A extends B \x7b m() \x7b super.n() \x7d \x7d"
  root := .branch "program" none 0 39 [
    .branch "class_declaration" none 0 39 [
      .token "class" 0 5,
      .branch "identifier" (some "name") 6 7 [],
      .branch "class_heritage" none 8 17 [
        .token "extends" 8 15,
        .branch "identifier" none 16 17 []],
      .branch "class_body" (some "body") 18 39 [
        .token "\x7b" 18 19,
        .branch "method_definition" none 20 37 [
          .branch "property_identifier" (some "name") 20 21 [],
          .branch "formal_parameters" (some "parameters") 21 23 [
            .token "(" 21 22, .token ")" 22 23],
          .branch "statement_block" (some "body") 24 37 [
            .token "\x7b" 24 25,
            .branch "expression_statement" none 26 35 [
              .branch "call_expression" none 26 35 [
                .branch "member_expression" (some "function") 26 33 [
                  .branch "super" (some "object") 26 31 [],
                  .token "." 31 32,
                  .branch "property_identifier" (some "property") 32 33 []],
                .branch "arguments" (some "arguments") 33 35 [
                  .token "(" 33 34, .token ")" 34 35]]],
            .token "\x7d" 36 37]],
        .token "\x7d" 38 39]]]

namespace SourceFile

open RuleBook

theorem extractWith_of_tree {file : SourceFile} {root : Node} (htree : file.tree = some root)
    (language : Language) (book : RuleBook) :
    file.extractWith language book =
      .ok (Extraction.ofDocument language book file.path ⟨file.source, root⟩) := by
  rw [extractWith, htree]

-- Each aspect is looked for on its own, whatever texts a reader takes for queries. A file with a
-- tree is read in any case. Two lists of texts that lead to the same queries for all aspects but
-- one give entries that differ in the part of that aspect at most; only when classes are looked
-- for in another way can everything differ. The faults tell of every aspect without a query.
theorem extractWith_isolates_aspects (read : Language → String → Except Defect Query)
    (file : SourceFile) (root : Node) (htree : file.tree = some root) (spoken language : Language)
    (texts texts' : List (Aspect × String)) (aspect : Aspect)
    (hagree : ∀ same, same ≠ aspect →
      (ofTexts read language texts').usable? same = (ofTexts read language texts).usable? same) :
    let book := ofTexts read language texts
    let facts := Facts.gather book ⟨file.source, root⟩
    ∃ extraction other, file.extractWith spoken book = .ok extraction ∧
      file.extractWith spoken (ofTexts read language texts') = .ok other ∧
      other.entry.path = extraction.entry.path ∧
      (aspect ≠ .classes →
        other.entry.classes.length = extraction.entry.classes.length ∧
          ∀ (owner : Nat) (entry entry' : ClassEntry),
            extraction.entry.classes[owner]? = some entry →
            other.entry.classes[owner]? = some entry' →
            ClassEntry.AgreeBut (facts.owned owner (·.offset) facts.calls) entry entry' aspect) ∧
      ListsInOrder [.classes, .methods, .heritage, .calls, .declarations]
        (fun aspect fault =>
          Absent language texts aspect fault ∨ Malformed read language texts aspect fault)
        extraction.faults ∧
      ListsInOrder [.classes, .methods, .calls, .heritage, .declarations]
        (Malformed read language texts) book.defects := by
  intro book facts
  refine ⟨_, _, extractWith_of_tree htree spoken _, extractWith_of_tree htree spoken _, rfl, ?_,
    faults_ofTexts spoken file.path _, defects_ofTexts⟩
  intro haspect
  refine ⟨Extraction.classes_length_ofDocument hagree haspect spoken file.path _, ?_⟩
  intro owner entry entry' hentry hentry'
  exact Extraction.agreeBut_ofDocument hagree haspect spoken file.path _ hentry hentry'

def superCaller : SourceFile := ⟨"a.js", "js", superDocument.source, some superDocument.root⟩

def superTexts : List (Aspect × String) := [
  (.classes, "(class_declaration name: (identifier) @class.name) @class.definition"),
  (.calls, "(call_expression function: (member_expression object: (_) @method.object " ++
    "property: (_) @method.name)) @method.call"),
  (.heritage, "(class_heritage (_) @class.parent)")]

-- A later text that is no query costs the parents, and the call is taken for one of the class.
theorem superCaller_isolates_heritage :
    let book := ofTexts Language.readQuery .javascript superTexts
    let broken := ofTexts Language.readQuery .javascript (superTexts ++ [(.heritage, "(")])
    (∀ same, same ≠ .heritage → broken.usable? same = book.usable? same) ∧
      ∃ extraction other,
        superCaller.extractWith .javascript book = .ok extraction ∧
        superCaller.extractWith .javascript broken = .ok other ∧
        extraction.entry.classes = [⟨"A", ["B"], none, [], [⟨"A", "n", "B"⟩]⟩] ∧
        other.entry.classes = [⟨"A", [], none, [], [⟨"A", "n", "A"⟩]⟩] ∧
        other.entry.classes.length = extraction.entry.classes.length := by
  intro book broken
  have hagree : ∀ same, same ≠ .heritage → broken.usable? same = book.usable? same := by
    intro same hne
    simp [usable?, query, ofTexts, broken, book, hne.symm, fault]
  obtain ⟨extraction, other, hfirst, hsecond, -, hagrees, -⟩ :=
    extractWith_isolates_aspects Language.readQuery superCaller _ rfl .javascript .javascript
      superTexts (superTexts ++ [(.heritage, "(")]) .heritage hagree
  refine ⟨hagree, extraction, other, hfirst, hsecond, ?_, ?_, (hagrees (by decide)).1⟩
  · have hclasses : (superCaller.extractWith .javascript book).toOption.map (·.entry.classes) =
        some [⟨"A", ["B"], none, [], [⟨"A", "n", "B"⟩]⟩] := by decide +kernel
    rw [hfirst] at hclasses
    exact Option.some.inj hclasses
  · have hclasses : (superCaller.extractWith .javascript broken).toOption.map (·.entry.classes) =
        some [⟨"A", [], none, [], [⟨"A", "n", "A"⟩]⟩] := by decide +kernel
    rw [hsecond] at hclasses
    exact Option.some.inj hclasses

end SourceFile

end ClassAtlas
