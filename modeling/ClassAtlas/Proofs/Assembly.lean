import Mathlib.Algebra.BigOperators.Group.List.Basic
import Mathlib.Algebra.GroupWithZero.Nat
import ClassAtlas.Extraction
import ClassAtlas.Proofs.Innermost
import ClassAtlas.Proofs.Query.Match

namespace ClassAtlas

namespace RuleBook

-- The query for an aspect, if there is one that can be run.
def usable? (book : RuleBook) (aspect : Aspect) : Option Query :=
  (book.query aspect).toOption

-- The matches from which the facts of an aspect are read.
def hits (book : RuleBook) (aspect : Aspect) (document : Document) : List Match :=
  (book.usable? aspect).elim [] (·.run document)

-- The matches before they are sorted.
def unsorted (book : RuleBook) (aspect : Aspect) (document : Document) : List Match :=
  (book.usable? aspect).elim [] (·.allMatches document)

theorem hits_of_sorted {book : RuleBook} {aspect : Aspect} {document : Document}
    (hsorted : (book.unsorted aspect document).Pairwise (Match.before · ·)) :
    book.hits aspect document = book.unsorted aspect document := by
  unfold unsorted at hsorted
  unfold hits unsorted
  cases hquery : book.usable? aspect with
  | none => rfl
  | some query =>
      rw [hquery] at hsorted
      exact List.mergeSort_of_pairwise hsorted

-- Matches that are put in order are the hits, if there is no other order for them.
theorem hits_of_perm {book : RuleBook} {aspect : Aspect} {document : Document}
    {ordered : List Match} (hperm : (book.unsorted aspect document).Perm ordered)
    (hordered : ordered.Pairwise fun a b => a.before b = true ∧ b.before a = false) :
    book.hits aspect document = ordered := by
  unfold unsorted at hperm
  unfold hits
  cases hquery : book.usable? aspect with
  | none =>
      rw [hquery] at hperm
      exact hperm.nil_eq
  | some query =>
      rw [hquery] at hperm
      have hsorted : (query.run document).Pairwise (Match.before · ·) :=
        List.pairwise_mergeSort Match.before_trans Match.before_total _
      have hall : (query.run document).Perm ordered := (List.mergeSort_perm _ _).trans hperm
      have hapart : ordered.Pairwise fun a b => ¬ (a.before b = true ∧ b.before a = true) := by
        refine hordered.imp ?_
        rintro a b ⟨-, hback⟩ ⟨-, hback'⟩
        rw [hback] at hback'
        cases hback'
      refine hall.eq_of_pairwise ?_ hsorted (hordered.imp And.left)
      intro a b ha hb hab hba
      by_contra hne
      have hsymm : Std.Symm fun a b : Match => ¬ (a.before b = true ∧ b.before a = true) :=
        ⟨fun a b hnot hboth => hnot hboth.symm⟩
      exact hapart.forall (hall.mem_iff.mp ha) hb hne ⟨hab, hba⟩

end RuleBook

namespace Facts

variable {α : Type}

theorem found_facts (book : RuleBook) (aspect : Aspect) (read : Document → Match → α)
    (document : Document) :
    found (book.facts aspect read document) = (book.hits aspect document).map (read document) := by
  cases hquery : book.query aspect <;>
    simp [RuleBook.facts, RuleBook.hits, RuleBook.usable?, hquery, found, Except.toOption]

theorem gather_eq (book : RuleBook) (document : Document) :
    gather book document =
      { classes := (book.hits .classes document).map (ClassDecl.ofMatch document)
        methods := (book.hits .methods document).map (MethodDecl.ofMatch document)
        heritage := (book.hits .heritage document).map (Heritage.ofMatch document)
        calls := (book.hits .calls document).map (Call.ofMatch document)
        bindings := (book.hits .declarations document).flatMap (Binding.ofMatch document) } := by
  simp only [gather, found_facts, List.flatMap]

-- The facts of one sort that belong to a class, in order.
def owned (facts : Facts) (owner : Nat) (place : α → Nat) (items : List α) : List α :=
  items.filter fun item => facts.owner? (place item) = some owner

-- Handing out facts one after the other comes to the same as giving each class all of its
-- facts at once.
theorem handOut_eq_mapIdx (facts : Facts) (place : α → Nat) (add : Draft → α → Draft)
    (items : List α) (drafts : List Draft) :
    facts.handOut place add items drafts =
      drafts.mapIdx fun owner draft => (facts.owned owner place items).foldl add draft := by
  unfold handOut
  induction items generalizing drafts with
  | nil => exact (Lists.mapIdx_keep drafts).symm
  | cons item rest ih =>
      rw [List.foldl_cons, ih]
      cases howner : facts.owner? (place item) with
      | none => simp [owned, howner]
      | some index =>
          simp only [Lists.modify_eq_mapIdx, List.mapIdx_mapIdx]
          congr 1
          funext owner draft
          by_cases h : owner = index
          · simp [owned, howner, h]
          · simp [owned, howner, h, Ne.symm h]

end Facts

namespace Draft

theorem foldl_addHeritage (clauses : List Heritage) (draft : Draft) :
    clauses.foldl addHeritage draft =
      { draft with
        entry := { draft.entry with
          parents := draft.entry.parents ++ clauses.flatMap (·.parents) }
        superclass := draft.superclass.or (clauses.findSome? (·.superclass)) } := by
  induction clauses generalizing draft with
  | nil => simp
  | cons clause rest ih =>
      rw [List.foldl_cons, ih]
      cases hsuper : clause.superclass <;> simp [addHeritage, hsuper]

theorem foldl_addMethod (methods : List MethodDecl) (draft : Draft) :
    methods.foldl addMethod draft =
      { draft with
        entry := { draft.entry with
          methods := draft.entry.methods ++ methods.map fun method => ⟨method.name, none⟩ } } := by
  induction methods generalizing draft with
  | nil => simp
  | cons method rest ih => simp [ih, addMethod]

theorem foldl_addBinding (bindings : List Binding) (draft : Draft) :
    bindings.foldl addBinding draft = { draft with bindings := draft.bindings ++ bindings } := by
  induction bindings generalizing draft with
  | nil => simp
  | cons binding rest ih => simp [ih, addBinding]

-- No call changes what the calls behind it can see.
theorem foldl_addCall (language : Language) (calls : List Call) (draft : Draft) :
    calls.foldl (addCall language) draft =
      { draft with
        entry := { draft.entry with
          usages := draft.entry.usages ++ calls.map fun call =>
            ⟨draft.entry.name, call.name,
              (draft.scope language).receiverType call.receiver call.offset⟩ } } := by
  induction calls generalizing draft with
  | nil => simp
  | cons call rest ih => simp [ih, addCall, scope]

end Draft

namespace Facts

variable {α : Type}

-- What calls can see inside a class: its bindings, and the superclass that the first of its
-- clauses with a superclass names.
def scope (facts : Facts) (language : Language) (owner : Nat) (decl : ClassDecl) : Scope where
  language := language
  className := decl.name
  superclass := (facts.owned owner (·.offset) facts.heritage).findSome? (·.superclass)
  bindings := facts.owned owner (·.offset) facts.bindings

-- The usage that a call becomes in a class.
def usageOf (facts : Facts) (language : Language) (owner : Nat) (decl : ClassDecl) (call : Call) :
    Usage :=
  ⟨decl.name, call.name,
    (facts.scope language owner decl).receiverType call.receiver call.offset⟩

-- The entry of a class, from the facts that it owns.
def entryOf (facts : Facts) (language : Language) (owner : Nat) (decl : ClassDecl) :
    ClassEntry where
  name := decl.name
  parents := (facts.owned owner (·.offset) facts.heritage).flatMap (·.parents)
  linked := none
  methods := (facts.owned owner (·.span.start) facts.methods).map fun method => ⟨method.name, none⟩
  usages := (facts.owned owner (·.offset) facts.calls).map (facts.usageOf language owner decl)

theorem classEntries_eq_mapIdx (facts : Facts) (language : Language) :
    facts.classEntries language = facts.classes.mapIdx (facts.entryOf language) := by
  unfold entryOf usageOf
  simp only [classEntries, drafts, handOut_eq_mapIdx, ← Lists.mapIdx_const, List.mapIdx_mapIdx,
    Function.comp_def, Draft.foldl_addHeritage, Draft.foldl_addMethod, Draft.foldl_addBinding,
    Draft.foldl_addCall, Draft.ofDecl, Draft.scope, scope, List.nil_append, Option.none_or]

theorem classEntries_getElem? (facts : Facts) (language : Language) (owner : Nat) :
    (facts.classEntries language)[owner]? =
      (facts.classes[owner]?).map (facts.entryOf language owner) := by
  rw [classEntries_eq_mapIdx, List.getElem?_mapIdx]

def Covers (facts : Facts) (offset : Nat) : Prop :=
  ∃ decl ∈ facts.classes, decl.span.contains offset = true

instance (facts : Facts) (offset : Nat) : Decidable (facts.Covers offset) :=
  inferInstanceAs (Decidable (∃ decl ∈ facts.classes, decl.span.contains offset = true))

-- Owners are numbers of classes, and only what lies in no class has no owner.
theorem covers_iff_owner? (facts : Facts) (offset : Nat) :
    facts.Covers offset ↔ ∃ owner < facts.classes.length, facts.owner? offset = some owner := by
  constructor
  · rintro ⟨decl, hdecl, hin⟩
    obtain ⟨owner, howner⟩ := exists_owner? hdecl hin
    obtain ⟨⟨found, hfound, -⟩, -⟩ := isLeast_of_owner? howner
    exact ⟨owner, (List.getElem?_eq_some_iff.mp hfound).1, howner⟩
  · rintro ⟨owner, -, howner⟩
    obtain ⟨⟨decl, -, hdecl, hin, -⟩, -⟩ := isLeast_of_owner? howner
    exact ⟨decl, hdecl, hin⟩

-- The classes divide up the facts that lie in some class.
theorem owned_perm (facts : Facts) (place : α → Nat) (items : List α) :
    ((List.range facts.classes.length).flatMap fun owner => facts.owned owner place items).Perm
      (items.filter fun item => facts.Covers (place item)) := by
  have hperm := Lists.flatMap_filter_perm (List.nodup_range (n := facts.classes.length))
    (fun item => facts.owner? (place item)) items
  simpa only [owned, covers_iff_owner?, List.mem_range] using hperm

theorem owned_flatMap_length_sum {β : Type} (facts : Facts) (place : α → Nat) (items : List α)
    (parts : α → List β) :
    (facts.classes.mapIdx fun owner _ =>
        ((facts.owned owner place items).flatMap parts).length).sum =
      ((items.filter fun item => facts.Covers (place item)).flatMap parts).length := by
  have hperm := (facts.owned_perm place items).flatMap_right parts
  rw [← hperm.length_eq, List.flatMap_assoc, List.length_flatMap, Lists.mapIdx_eq_range_map]

theorem owned_length_sum (facts : Facts) (place : α → Nat) (items : List α) :
    (facts.classes.mapIdx fun owner _ => (facts.owned owner place items).length).sum =
      (items.filter fun item => facts.Covers (place item)).length := by
  simpa only [List.flatMap_singleton'] using facts.owned_flatMap_length_sum place items ([·])

def count (facts : Facts) : Aspect → Nat
  | .classes => facts.classes.length
  | .methods => facts.methods.length
  | .calls => facts.calls.length
  | .heritage => facts.heritage.length
  | .declarations => facts.bindings.length

theorem count_eq_zero_of_fault {book : RuleBook} {document : Document} {aspect : Aspect}
    {fault : Fault} (hfault : book.query aspect = .error fault) :
    (gather book document).count aspect = 0 := by
  cases aspect <;> simp [count, gather, RuleBook.facts, hfault, found, Except.toOption]

end Facts

-- A file has one entry for each of its classes, in order. In it stands what the facts that
-- the class owns say, in order, and the type of a receiver depends on no other facts. Each
-- fact that lies in some class goes into one entry, and the others go into none.
theorem Extraction.classes_from_owned_facts (language : Language) (book : RuleBook) (path : String)
    (document : Document) :
    let facts := Facts.gather book document
    let file := (Extraction.ofDocument language book path document).entry
    file.path = path ∧
      file.classes = facts.classes.mapIdx (fun owner decl =>
        { name := decl.name
          parents := (facts.owned owner (·.offset) facts.heritage).flatMap (·.parents)
          linked := none
          methods := (facts.owned owner (·.span.start) facts.methods).map fun method =>
            ⟨method.name, none⟩
          usages := (facts.owned owner (·.offset) facts.calls).map fun call =>
            ⟨decl.name, call.name,
              (facts.scope language owner decl).receiverType call.receiver call.offset⟩ }) ∧
      (∀ (α : Type) (place : α → Nat) (items : List α),
        ((List.range facts.classes.length).flatMap fun owner => facts.owned owner place items).Perm
          (items.filter fun item => facts.Covers (place item))) ∧
      (file.classes.map (·.methods.length)).sum =
        (facts.methods.filter fun method => facts.Covers method.span.start).length ∧
      (file.classes.map (·.usages.length)).sum =
        (facts.calls.filter fun call => facts.Covers call.offset).length ∧
      (file.classes.map (·.parents.length)).sum =
        ((facts.heritage.filter fun clause => facts.Covers clause.offset).flatMap
          (·.parents)).length ∧
      ∀ aspect fault, book.query aspect = .error fault → facts.count aspect = 0 := by
  intro facts file
  have hclasses := facts.classEntries_eq_mapIdx language
  change file.classes = _ at hclasses
  refine ⟨rfl, hclasses, fun α => facts.owned_perm, ?_, ?_, ?_, ?_⟩
  · simp only [hclasses, Lists.map_mapIdx, Facts.entryOf, List.length_map, facts.owned_length_sum]
  · simp only [hclasses, Lists.map_mapIdx, Facts.entryOf, List.length_map, facts.owned_length_sum]
  · simp only [hclasses, Lists.map_mapIdx, Facts.entryOf, facts.owned_flatMap_length_sum]
  · intro aspect fault
    exact Facts.count_eq_zero_of_fault

-- A call outside of every class, and a class `A` with a class `B` in its method.
def localClass : Document where
  source := "f(); class A \x7b m() \x7b class B extends A \x7b " ++
    "k() \x7b super.m() \x7d \x7d \x7d \x7d"
  root := .branch "program" none 0 64 [
    .branch "expression_statement" none 0 4 [
      .branch "call_expression" none 0 3 [
        .branch "identifier" (some "function") 0 1 [],
        .branch "arguments" (some "arguments") 1 3 [.token "(" 1 2, .token ")" 2 3]],
      .token ";" 3 4],
    .branch "class_declaration" none 5 64 [
      .token "class" 5 10,
      .branch "identifier" (some "name") 11 12 [],
      .branch "class_body" (some "body") 13 64 [
        .token "\x7b" 13 14,
        .branch "method_definition" (some "member") 15 62 [
          .branch "property_identifier" (some "name") 15 16 [],
          .branch "formal_parameters" (some "parameters") 16 18 [
            .token "(" 16 17, .token ")" 17 18],
          .branch "statement_block" (some "body") 19 62 [
            .token "\x7b" 19 20,
            .branch "class_declaration" none 21 60 [
              .token "class" 21 26,
              .branch "identifier" (some "name") 27 28 [],
              .branch "class_heritage" none 29 38 [
                .token "extends" 29 36,
                .branch "identifier" none 37 38 []],
              .branch "class_body" (some "body") 39 60 [
                .token "\x7b" 39 40,
                .branch "method_definition" (some "member") 41 58 [
                  .branch "property_identifier" (some "name") 41 42 [],
                  .branch "formal_parameters" (some "parameters") 42 44 [
                    .token "(" 42 43, .token ")" 43 44],
                  .branch "statement_block" (some "body") 45 58 [
                    .token "\x7b" 45 46,
                    .branch "expression_statement" none 47 56 [
                      .branch "call_expression" none 47 56 [
                        .branch "member_expression" (some "function") 47 54 [
                          .branch "super" (some "object") 47 52 [],
                          .token "." 52 53,
                          .branch "property_identifier" (some "property") 53 54 []],
                        .branch "arguments" (some "arguments") 54 56 [
                          .token "(" 54 55, .token ")" 55 56]]],
                    .token "\x7d" 57 58]],
                .token "\x7d" 59 60]],
            .token "\x7d" 61 62]],
        .token "\x7d" 63 64]]]

-- The clause, the inner method and the call in it go to the inner class, the outer method to the
-- outer one, and the call in front to neither of them.
theorem localClass_from_owned_facts :
    let facts := Facts.gather (.builtIn .javascript) localClass
    let file := (Extraction.ofDocument .javascript (.builtIn .javascript) "a.js" localClass).entry
    file.classes = [⟨"A", [], none, [⟨"m", none⟩], []⟩,
        ⟨"B", ["A"], none, [⟨"k", none⟩], [⟨"B", "m", "A"⟩]⟩] ∧
      facts.calls.map (·.name) = ["f", "m"] ∧
      (facts.owned 0 (·.offset) facts.calls).map (·.name) = [] ∧
      (facts.owned 1 (·.offset) facts.calls).map (·.name) = ["m"] ∧
      (facts.calls.filter fun call => facts.Covers call.offset).length = 1 := by
  intro facts file
  have hclasses : (RuleBook.builtIn .javascript).hits .classes localClass =
      (RuleBook.builtIn .javascript).unsorted .classes localClass :=
    RuleBook.hits_of_sorted (by decide +kernel)
  have hmethods : (RuleBook.builtIn .javascript).hits .methods localClass =
      (RuleBook.builtIn .javascript).unsorted .methods localClass :=
    RuleBook.hits_of_sorted (by decide +kernel)
  have hcalls : (RuleBook.builtIn .javascript).hits .calls localClass =
      (RuleBook.builtIn .javascript).unsorted .calls localClass :=
    RuleBook.hits_of_sorted (by decide +kernel)
  obtain ⟨-, hentries, -, -, husages, -⟩ :=
    Extraction.classes_from_owned_facts .javascript (.builtIn .javascript) "a.js" localClass
  have hfile : file.classes = [⟨"A", [], none, [⟨"m", none⟩], []⟩,
      ⟨"B", ["A"], none, [⟨"k", none⟩], [⟨"B", "m", "A"⟩]⟩] := by
    refine hentries.trans ?_
    rw [Facts.gather_eq, hclasses, hmethods, hcalls]
    decide +kernel
  have hfacts : facts.calls.map (·.name) = ["f", "m"] ∧
      (facts.owned 0 (·.offset) facts.calls).map (·.name) = [] ∧
      (facts.owned 1 (·.offset) facts.calls).map (·.name) = ["m"] := by
    simp only [facts, Facts.gather_eq, hclasses, hmethods, hcalls]
    decide +kernel
  have hcount : (file.classes.map (·.usages.length)).sum = 1 := by
    rw [hfile]
    rfl
  exact ⟨hfile, hfacts.1, hfacts.2.1, hfacts.2.2, husages.symm.trans hcount⟩

end ClassAtlas
