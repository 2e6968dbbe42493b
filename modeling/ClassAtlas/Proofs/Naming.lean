import ClassAtlas.Proofs.Heritage
import ClassAtlas.Proofs.Text.DottedName
import ClassAtlas.Proofs.Written

namespace ClassAtlas

open Text (DottedName)

namespace Heritage

structure WellNamed (clause : Heritage) : Prop where
  parents : ∀ parent ∈ clause.parents, DottedName parent
  superclass : ∀ parent ∈ clause.superclass, DottedName parent

variable {document : Document} {parent : String}

theorem dottedName_of_mem_typeNames {node : Node} (hparent : parent ∈ typeNames document node) :
    DottedName parent := by
  obtain ⟨rfl, hne⟩ := (mem_typeNames_iff document).mp hparent
  exact (Text.typeName_eq_empty_or_dottedName _).resolve_left hne

theorem dottedName_of_mem_parents {found : Match}
    (hparent : parent ∈ (ofMatch document found).parents) : DottedName parent := by
  rcases List.mem_append.mp hparent with hcaptured | hclause
  · obtain ⟨node, -, hnode⟩ := List.mem_flatMap.mp hcaptured
    exact dottedName_of_mem_typeNames hnode
  · obtain ⟨clause, -, hclause⟩ := List.mem_flatMap.mp hclause
    obtain ⟨entry, -, hentry⟩ := (mem_parentNames_iff document).mp hclause
    exact dottedName_of_mem_typeNames hentry

theorem wellNamed_ofMatch (document : Document) (found : Match) :
    (ofMatch document found).WellNamed where
  parents _ hparent := dottedName_of_mem_parents hparent
  superclass _ hparent := dottedName_of_mem_parents (mem_parents_of_superclass hparent)

end Heritage

namespace Binding

structure WellNamed (binding : Binding) : Prop where
  name : binding.name ≠ ""
  type : DottedName binding.type

theorem wellNamed_of_mem_ofMatch {document : Document} {found : Match} {binding : Binding}
    (hbinding : binding ∈ ofMatch document found) : binding.WellNamed := by
  obtain ⟨name, offset, type, -, hmade⟩ := mem_ofMatch_iff.mp hbinding
  obtain ⟨hname, htype, rfl⟩ := make?_eq_some_iff.mp hmade
  exact ⟨hname, (Text.typeName_eq_empty_or_dottedName _).resolve_left htype⟩

end Binding

namespace Scope

-- All that a call can see has a proper name, the class itself apart.
structure WellNamed (scope : Scope) : Prop where
  superclass : ∀ parent ∈ scope.superclass, DottedName parent
  bindings : ∀ binding ∈ scope.bindings, binding.WellNamed

theorem WellNamed.typed {scope : Scope} (hscope : scope.WellNamed) : scope.Typed where
  superclass parent hparent := (hscope.superclass parent hparent).ne_empty
  bindings binding hbinding := (hscope.bindings binding hbinding).type.ne_empty

-- A receiver without a type is left to a class without a name and to free functions.
theorem WellNamed.of_receiverType_eq_empty {scope : Scope} (hscope : scope.WellNamed)
    {receiver : Option String} {offset : Nat} (hempty : scope.receiverType receiver offset = "") :
    scope.className = "" ∨
      NoReceiver receiver ∧ scope.language ≠ .java ∧ scope.language ≠ .csharp := by
  by_cases hname : scope.className = ""
  · exact Or.inl hname
  · right
    obtain ⟨hnone, hfree⟩ := (hscope.typed.receiverType_eq_empty_iff hname _ _).mp hempty
    refine ⟨hnone, ?_, ?_⟩ <;>
    · intro hlanguage
      rw [hlanguage] at hfree
      cases hfree

end Scope

namespace Facts

structure WellNamed (facts : Facts) : Prop where
  heritage : ∀ clause ∈ facts.heritage, clause.WellNamed
  bindings : ∀ binding ∈ facts.bindings, binding.WellNamed

theorem wellNamed_gather (book : RuleBook) (document : Document) :
    (gather book document).WellNamed := by
  rw [gather_eq]
  constructor
  · intro clause hclause
    obtain ⟨found, -, rfl⟩ := List.mem_map.mp hclause
    exact Heritage.wellNamed_ofMatch document found
  · intro binding hbinding
    obtain ⟨found, -, hfound⟩ := List.mem_flatMap.mp hbinding
    exact Binding.wellNamed_of_mem_ofMatch hfound

variable {facts : Facts} (hfacts : facts.WellNamed) (language : Language) (owner : Nat)
  (decl : ClassDecl)

include hfacts

theorem WellNamed.scope : (facts.scope language owner decl).WellNamed := by
  constructor
  · intro parent hparent
    obtain ⟨clause, hclause, hsuper⟩ := List.exists_of_findSome?_eq_some hparent
    exact (hfacts.heritage clause (List.mem_filter.mp hclause).1).superclass parent hsuper
  · intro binding hbinding
    exact hfacts.bindings binding (List.mem_filter.mp hbinding).1

theorem WellNamed.parents {parent : String}
    (hparent : parent ∈ (facts.entryOf language owner decl).parents) : DottedName parent := by
  obtain ⟨clause, hclause, hmem⟩ := List.mem_flatMap.mp hparent
  exact (hfacts.heritage clause (List.mem_filter.mp hclause).1).parents parent hmem

end Facts

-- Whatever the queries capture, parents and declared types are dotted names, and nothing is
-- declared without a name. Links are left to be made later. A call belongs to the class that it
-- is listed in, and there are few ways for it to be left without a type.
theorem extraction_wellNamed (language : Language) (book : RuleBook) (path : String)
    (document : Document) :
    let facts := Facts.gather book document
    let file := (Extraction.ofDocument language book path document).entry
    facts.WellNamed ∧ file.classes.length = facts.classes.length ∧
      ∀ (owner : Nat) (entry : ClassEntry), file.classes[owner]? = some entry →
        ∃ decl, facts.classes[owner]? = some decl ∧ entry.name = decl.name ∧
          (∀ parent ∈ entry.parents, DottedName parent) ∧
          (facts.scope language owner decl).WellNamed ∧
          entry.linked = none ∧ (∀ method ∈ entry.methods, method.callers = none) ∧
          List.Forall₂ (fun call usage => usage.caller = entry.name ∧
              usage.receiver =
                (facts.scope language owner decl).receiverType call.receiver call.offset ∧
              (usage.receiver = "" → entry.name = "" ∨ Scope.NoReceiver call.receiver ∧
                language ≠ .java ∧ language ≠ .csharp))
            (facts.owned owner (·.offset) facts.calls) entry.usages := by
  intro facts file
  have hfacts : facts.WellNamed := Facts.wellNamed_gather book document
  have hlength : file.classes.length = facts.classes.length := by
    change (facts.classEntries language).length = _
    rw [Facts.classEntries_eq_mapIdx, List.length_mapIdx]
  refine ⟨hfacts, hlength, ?_⟩
  intro owner entry hentry
  have hlookup := facts.classEntries_getElem? language owner
  obtain ⟨decl, hdecl, rfl⟩ := Option.map_eq_some_iff.mp (hlookup.symm.trans hentry)
  have hscope := hfacts.scope language owner decl
  refine ⟨decl, hdecl, rfl, fun _ hparent => hfacts.parents _ _ _ hparent, hscope, rfl, ?_, ?_⟩
  · intro method hmethod
    obtain ⟨_, -, rfl⟩ := List.mem_map.mp hmethod
    rfl
  · apply List.forall₂_map_right_iff.mpr
    apply List.forall₂_same.mpr
    intro call _
    exact ⟨rfl, rfl, hscope.of_receiverType_eq_empty⟩

theorem superDocument_wellNamed :
    let book := RuleBook.builtIn .javascript
    let facts := Facts.gather book superDocument
    let entry : ClassEntry := ⟨"A", ["B"], none, [⟨"m", none⟩], [⟨"A", "n", "B"⟩]⟩
    (Extraction.ofDocument .javascript book "a.js" superDocument).entry.classes[0]? = some entry ∧
      facts.WellNamed ∧ (∀ parent ∈ entry.parents, DottedName parent) ∧
      ∃ decl, facts.classes[0]? = some decl ∧ (facts.scope .javascript 0 decl).WellNamed := by
  intro book facts entry
  have hentry : (Extraction.ofDocument .javascript book "a.js" superDocument).entry.classes[0]? =
      some entry := by decide +kernel
  obtain ⟨hfacts, -, hclasses⟩ := extraction_wellNamed .javascript book "a.js" superDocument
  obtain ⟨decl, hdecl, -, hparents, hscope, -⟩ := hclasses 0 entry hentry
  exact ⟨hentry, hfacts, hparents, decl, hdecl, hscope⟩

end ClassAtlas
