import ClassAtlas.Proofs.Isolation

namespace ClassAtlas

-- The node without its children of a kind.
def Node.without (node : Node) (kind : String) : Node :=
  .mk node.label (node.children.filter (fun child => child.kind != kind))

theorem Node.namedChildren_without (node : Node) (kind : String) :
    (node.without kind).namedChildren =
      node.namedChildren.filter (fun child => child.kind != kind) :=
  List.filter_comm _ _ _

theorem Node.firstNamed?_without (node : Node) {kind other : String} (hne : kind ≠ other) :
    (node.without other).firstNamed? kind = node.firstNamed? kind := by
  simp only [firstNamed?, namedChildren_without, List.find?_filter]
  congr 1
  funext child
  by_cases hkind : child.kind = kind <;> simp [hkind, hne]

namespace Heritage

variable (document : Document)

-- The parents that one child of a clause stands for.
def namedBy (child : Node) : List String :=
  if isNoise child.kind then []
  else if isWrapper child.kind then parentNames document child
  else typeNames document child

theorem parentNames_eq_flatMap (clause : Node) :
    parentNames document clause = clause.namedChildren.flatMap (namedBy document) := by
  obtain ⟨label, children⟩ := clause
  show parentNamesAmong document children = (children.filter Node.named).flatMap _
  induction children with
  | nil => rfl
  | cons child rest ih =>
      rw [parentNamesAmong, ih]
      cases hnamed : child.named with
      | false => simp [hnamed]
      | true =>
          cases hnoise : isNoise child.kind <;> simp [hnamed, hnoise, namedBy]

variable {document}

theorem mem_parentNames_of_child {clause child : Node} {parent : String}
    (hchild : child ∈ clause.namedChildren) (hparent : parent ∈ namedBy document child) :
    parent ∈ parentNames document clause := by
  rw [parentNames_eq_flatMap]
  exact List.mem_flatMap.mpr ⟨child, hchild, hparent⟩

-- Whichever way a clause is looked at for its superclass, the answer is one of its parents.
theorem mem_parentNames_of_superclass? {clause : Node} {parent : String}
    (hparent : superclass? document clause = some parent) :
    parent ∈ parentNames document clause := by
  unfold superclass? at hparent
  split at hparent
  · cases hparent
  · split at hparent
    · split at hparent
      · next extending hextending =>
        have hkind : extending.kind = "extends_clause" := by
          simpa using List.find?_some hextending
        have hnamed : namedBy document extending = parentNames document extending := by
          rw [namedBy, hkind]
          rfl
        apply mem_parentNames_of_child (List.mem_of_find?_eq_some hextending)
        rw [hnamed]
        exact List.mem_of_mem_head? hparent
      · split at hparent
        · cases hparent
        · exact List.mem_of_mem_head? hparent
    · exact List.mem_of_mem_head? hparent

-- A clause that holds clauses of its own, apart from noise, leaves the superclass to the first
-- of them that extends.
theorem superclass?_of_clauses {clause : Node} (hkind : clause.kind = "class_heritage")
    (hchildren : ∀ child ∈ clause.namedChildren, isNoise child.kind = false →
      child.kind = "extends_clause" ∨ child.kind = "implements_clause") :
    superclass? document clause =
      (clause.firstNamed? "extends_clause").bind fun extending =>
        (parentNames document extending).head? := by
  have hlists : listsInterfaces clause.kind = false := by rw [hkind]; rfl
  rw [superclass?, hlists, hkind]
  cases hextends : clause.firstNamed? "extends_clause" with
  | some extending => rfl
  | none =>
      cases himplements : clause.firstNamed? "implements_clause" with
      | some implementing => rfl
      | none =>
          have hnone : parentNames document clause = [] := by
            rw [parentNames_eq_flatMap, List.flatMap_eq_nil_iff]
            intro child hchild
            cases hnoise : isNoise child.kind with
            | true => simp [namedBy, hnoise]
            | false =>
                rcases hchildren child hchild hnoise with hclause | hclause
                · simpa [hclause] using List.find?_eq_none.mp hextends child hchild
                · simpa [hclause] using List.find?_eq_none.mp himplements child hchild
          simp [hnone]

theorem superclass?_without_implements {clause : Node} (hkind : clause.kind = "class_heritage")
    (hchildren : ∀ child ∈ clause.namedChildren, isNoise child.kind = false →
      child.kind = "extends_clause" ∨ child.kind = "implements_clause") :
    superclass? document (clause.without "implements_clause") = superclass? document clause := by
  have hrest : ∀ child ∈ (clause.without "implements_clause").namedChildren,
      isNoise child.kind = false →
        child.kind = "extends_clause" ∨ child.kind = "implements_clause" := by
    intro child hchild
    rw [Node.namedChildren_without] at hchild
    exact hchildren child (List.mem_filter.mp hchild).1
  have hkind' : (clause.without "implements_clause").kind = "class_heritage" := hkind
  rw [superclass?_of_clauses hkind hchildren, superclass?_of_clauses hkind' hrest,
    Node.firstNamed?_without _ (by decide)]

theorem mem_parents_of_superclass {found : Match} {parent : String}
    (hparent : (ofMatch document found).superclass = some parent) :
    parent ∈ (ofMatch document found).parents := by
  simp only [ofMatch, Option.or_eq_some_iff] at hparent
  rcases hparent with hcaptured | ⟨-, hclause⟩
  · exact List.mem_append_left _ (List.mem_of_mem_head? hcaptured)
  · obtain ⟨clause, hclause, hsuper⟩ := List.exists_of_findSome?_eq_some hclause
    apply List.mem_append_right
    exact List.mem_flatMap.mpr ⟨clause, hclause, mem_parentNames_of_superclass? hsuper⟩

end Heritage

namespace Match

-- Nothing is captured but clauses that list interfaces.
def OnlyInterfaces (found : Match) : Prop :=
  ∀ capture ∈ found.captures, capture.1 = "class.heritage" ∧
    capture.2.kind ∈ ["super_interfaces", "extends_interfaces", "extends_type_clause",
      "implements_clause"]

instance : DecidablePred OnlyInterfaces := fun found =>
  inferInstanceAs (Decidable (∀ capture ∈ found.captures, capture.1 = "class.heritage" ∧
    capture.2.kind ∈ ["super_interfaces", "extends_interfaces", "extends_type_clause",
      "implements_clause"]))

theorem OnlyInterfaces.superclass_eq_none {found : Match} (honly : found.OnlyInterfaces)
    (document : Document) : (Heritage.ofMatch document found).superclass = none := by
  have hparents : found.all "class.parent" = [] := by
    rw [all, List.map_eq_nil_iff, List.filter_eq_nil_iff]
    intro capture hcapture
    simp [(honly capture hcapture).1]
  have hclauses :
      (found.all "class.heritage").findSome? (Heritage.superclass? document) = none := by
    rw [List.findSome?_eq_none_iff]
    intro clause hclause
    obtain ⟨capture, hcapture, rfl⟩ := List.mem_map.mp hclause
    have hkind := (honly capture (List.mem_filter.mp hcapture).1).2
    rw [Heritage.superclass?, if_pos]
    simpa [Heritage.listsInterfaces] using hkind
  simp [Heritage.ofMatch, hparents, hclauses]

end Match

namespace Facts

-- The facts with the clauses that are read from other matches.
def withHeritage (facts : Facts) (document : Document) (hits : List Match) : Facts :=
  { facts with heritage := hits.map (Heritage.ofMatch document) }

theorem gather_eq_withHeritage (book : RuleBook) (document : Document) :
    gather book document =
      (gather book document).withHeritage document (book.hits .heritage document) := by
  simp only [gather_eq, withHeritage]

-- The superclass comes from the first clause that has one, so that clauses without a superclass
-- can stand anywhere among them.
theorem scope_withHeritage (facts : Facts) (document : Document) (hits : List Match)
    (language : Language) (owner : Nat) (decl : ClassDecl) :
    (facts.withHeritage document hits).scope language owner decl =
      { facts.scope language owner decl with
        superclass := ((hits.filter fun found => ¬ found.OnlyInterfaces).filter fun found =>
            facts.owner? (Heritage.ofMatch document found).offset = some owner).findSome?
          fun found => (Heritage.ofMatch document found).superclass } := by
  have hsuper : (facts.owned owner (·.offset) (hits.map (Heritage.ofMatch document))).findSome?
        (·.superclass) =
      ((hits.filter fun found => ¬ found.OnlyInterfaces).filter fun found =>
          facts.owner? (Heritage.ofMatch document found).offset = some owner).findSome?
        fun found => (Heritage.ofMatch document found).superclass := by
    rw [owned, List.filter_map, List.findSome?_map, List.filter_comm]
    symm
    apply Lists.findSome?_filter_of_none
    intro found _ hfound
    have honly : found.OnlyInterfaces := by simpa using hfound
    exact honly.superclass_eq_none document
  rw [← hsuper]
  rfl

theorem usages_withHeritage (facts : Facts) (document : Document) {hits hits' : List Match}
    (hhits : (hits.filter fun found => ¬ found.OnlyInterfaces) =
      hits'.filter fun found => ¬ found.OnlyInterfaces)
    (language : Language) :
    ((facts.withHeritage document hits).classEntries language).map (·.usages) =
      ((facts.withHeritage document hits').classEntries language).map (·.usages) := by
  have husage (owner : Nat) (decl : ClassDecl) :
      (facts.withHeritage document hits).usageOf language owner decl =
        (facts.withHeritage document hits').usageOf language owner decl := by
    funext call
    simp only [usageOf, scope_withHeritage, hhits]
  apply List.ext_getElem?
  intro owner
  simp only [List.getElem?_map, classEntries_getElem?, Option.map_map, Function.comp_def, entryOf,
    husage]
  rfl

theorem exists_match_of_owned {book : RuleBook} {document : Document} {owner : Nat}
    {clause : Heritage}
    (hclause : clause ∈
      (gather book document).owned owner (·.offset) (gather book document).heritage) :
    ∃ found, Heritage.ofMatch document found = clause := by
  have hread := (List.mem_filter.mp hclause).1
  rw [gather_eq] at hread
  obtain ⟨found, -, hfound⟩ := List.mem_map.mp hread
  exact ⟨found, hfound⟩

theorem mem_parents_of_scope {book : RuleBook} {document : Document} {language : Language}
    {owner : Nat} {decl : ClassDecl} {parent : String}
    (hparent : ((gather book document).scope language owner decl).superclass = some parent) :
    parent ∈ ((gather book document).entryOf language owner decl).parents := by
  obtain ⟨clause, hclause, hsuper⟩ := List.exists_of_findSome?_eq_some hparent
  obtain ⟨found, rfl⟩ := exists_match_of_owned hclause
  exact List.mem_flatMap.mpr ⟨_, hclause, Heritage.mem_parents_of_superclass hsuper⟩

-- A call on the superclass gets the type of a parent, or of the class itself.
theorem usageOf_onSuper (book : RuleBook) (document : Document) (language : Language) (owner : Nat)
    (decl : ClassDecl) {call : Call} (hsuper : Scope.OnSuper call.receiver) :
    let facts := gather book document
    (facts.usageOf language owner decl call).receiver ∈
        (facts.entryOf language owner decl).parents ∨
      (facts.usageOf language owner decl call).receiver = decl.name := by
  intro facts
  have htype : (facts.usageOf language owner decl call).receiver =
      (facts.scope language owner decl).superclass.getD decl.name :=
    Scope.receiverType_of_onSuper hsuper _ _
  cases hparent : (facts.scope language owner decl).superclass with
  | none =>
      rw [htype, hparent]
      exact Or.inr rfl
  | some parent =>
      rw [htype, hparent]
      exact Or.inl (mem_parents_of_scope hparent)

end Facts

-- A call on the superclass reaches a parent that the class declares, or the class itself when it
-- declares none that could be meant. Lists of interfaces have no part in it: matches of nothing
-- but such lists can be added or left out, and a clause of several clauses has the superclass
-- that it has without those that implement.
theorem super_calls_reach_parents (language : Language) (book : RuleBook) (path : String)
    (document : Document) :
    let facts := Facts.gather book document
    let file := (Extraction.ofDocument language book path document).entry
    (∀ (owner : Nat) (entry : ClassEntry), file.classes[owner]? = some entry →
        List.Forall₂ (fun call usage => usage.caller = entry.name ∧ usage.method = call.name ∧
            (Scope.OnSuper call.receiver →
              usage.receiver ∈ entry.parents ∨ usage.receiver = entry.name))
          (facts.owned owner (·.offset) facts.calls) entry.usages) ∧
      (facts = facts.withHeritage document (book.hits .heritage document) ∧
        ∀ hits hits' : List Match,
          (hits.filter fun found => ¬ found.OnlyInterfaces) =
            (hits'.filter fun found => ¬ found.OnlyInterfaces) →
          ((facts.withHeritage document hits).classEntries language).map (·.usages) =
            ((facts.withHeritage document hits').classEntries language).map (·.usages)) ∧
      ∀ clause : Node, clause.kind = "class_heritage" →
        (∀ child ∈ clause.namedChildren, Heritage.isNoise child.kind = false →
          child.kind = "extends_clause" ∨ child.kind = "implements_clause") →
        Heritage.superclass? document (clause.without "implements_clause") =
          Heritage.superclass? document clause := by
  intro facts file
  refine ⟨?_, ⟨Facts.gather_eq_withHeritage book document, ?_⟩, ?_⟩
  · intro owner entry hentry
    have hlookup := facts.classEntries_getElem? language owner
    obtain ⟨decl, -, rfl⟩ := Option.map_eq_some_iff.mp (hlookup.symm.trans hentry)
    apply List.forall₂_map_right_iff.mpr
    apply List.forall₂_same.mpr
    intro call _
    exact ⟨rfl, rfl, fun hsuper => Facts.usageOf_onSuper book document _ owner decl hsuper⟩
  · intro hits hits' hhits
    exact facts.usages_withHeritage document hhits language
  · intro clause hkind hchildren
    exact Heritage.superclass?_without_implements hkind hchildren

-- A clause that implements before it extends, over the text of the class `A`.
def implementsFirst : Node :=
  .branch "class_heritage" none 6 17 [
    .branch "implements_clause" none 6 7 [.branch "identifier" none 6 7 []],
    .branch "comment" none 8 15 [],
    .branch "extends_clause" none 16 17 [.branch "identifier" none 16 17 []]]

theorem superDocument_reaches_parent :
    let book := RuleBook.builtIn .javascript
    let facts := Facts.gather book superDocument
    let interfaces : Match := ⟨0, [("class.heritage", .branch "implements_clause" none 6 7 [])]⟩
    (Extraction.ofDocument .javascript book "a.js" superDocument).entry.classes[0]? =
        some ⟨"A", ["B"], none, [⟨"m", none⟩], [⟨"A", "n", "B"⟩]⟩ ∧
      List.Forall₂ (fun (call : Call) (usage : Usage) =>
          usage.caller = "A" ∧ usage.method = call.name ∧
            (Scope.OnSuper call.receiver → usage.receiver ∈ ["B"] ∨ usage.receiver = "A"))
        [⟨"n", [], 0, 0, some "super", 26⟩] [⟨"A", "n", "B"⟩] ∧
      ((facts.withHeritage superDocument [interfaces]).classEntries .javascript).map (·.usages) =
        ((facts.withHeritage superDocument []).classEntries .javascript).map (·.usages) ∧
      Heritage.superclass? superDocument (implementsFirst.without "implements_clause") =
        Heritage.superclass? superDocument implementsFirst := by
  intro book facts interfaces
  obtain ⟨hcalls, ⟨-, hinterfaces⟩, hclause⟩ :=
    super_calls_reach_parents .javascript book "a.js" superDocument
  have hentry : (Extraction.ofDocument .javascript book "a.js" superDocument).entry.classes[0]? =
      some ⟨"A", ["B"], none, [⟨"m", none⟩], [⟨"A", "n", "B"⟩]⟩ := by decide +kernel
  have howned : facts.owned 0 (·.offset) facts.calls = [⟨"n", [], 0, 0, some "super", 26⟩] := by
    decide +kernel
  have hsuper := hcalls 0 _ hentry
  rw [howned] at hsuper
  exact ⟨hentry, hsuper, hinterfaces [interfaces] [] rfl,
    hclause implementsFirst rfl (by decide)⟩

end ClassAtlas
