import ClassAtlas.Proofs.Superclass
import ClassAtlas.Proofs.Tree.WellFormed

namespace ClassAtlas.Heritage

-- A node that stands for a parent of its own, when what is above it is looked through.
def NamesParent (node : Node) : Prop :=
  node.named = true ∧ isNoise node.kind = false ∧ isWrapper node.kind = false

-- A node that is looked through.
def LookedThrough (node : Node) : Prop :=
  node.named = true ∧ isWrapper node.kind = true

-- A node that is passed over with all that it holds.
def PassedOver (node : Node) : Prop :=
  node.named = false ∨ isNoise node.kind = true

instance (node : Node) : Decidable (NamesParent node) := inferInstanceAs (Decidable (_ ∧ _))

instance (node : Node) : Decidable (LookedThrough node) := inferInstanceAs (Decidable (_ ∧ _))

theorem isNoise_of_isWrapper {kind : String} (hwrapper : isWrapper kind = true) :
    isNoise kind = false := by
  have hkinds : kind ∈ ["class_heritage", "extends_clause", "implements_clause",
      "extends_type_clause", "superclass", "super_interfaces", "extends_interfaces", "type_list",
      "base_list", "argument_list"] := List.contains_iff_mem.mp hwrapper
  simp only [List.mem_cons, List.not_mem_nil, or_false] at hkinds
  rcases hkinds with rfl | rfl | rfl | rfl | rfl | rfl | rfl | rfl | rfl | rfl <;> decide

theorem passedOver_or_lookedThrough_or_namesParent (node : Node) :
    PassedOver node ∨ LookedThrough node ∨ NamesParent node := by
  unfold PassedOver LookedThrough NamesParent
  cases node.named <;> cases isNoise node.kind <;> cases isWrapper node.kind <;> simp

theorem PassedOver.not_namesParent {node : Node} (hpassed : PassedOver node) :
    ¬ NamesParent node := by
  rintro ⟨hnamed, hnoise, -⟩
  rcases hpassed with hpassed | hpassed
  · rw [hnamed] at hpassed
    cases hpassed
  · rw [hnoise] at hpassed
    cases hpassed

theorem PassedOver.not_lookedThrough {node : Node} (hpassed : PassedOver node) :
    ¬ LookedThrough node := by
  rintro ⟨hnamed, hwrapper⟩
  rcases hpassed with hpassed | hpassed
  · rw [hnamed] at hpassed
    cases hpassed
  · rw [isNoise_of_isWrapper hwrapper] at hpassed
    cases hpassed

theorem LookedThrough.not_namesParent {node : Node} (hwrapper : LookedThrough node) :
    ¬ NamesParent node := by
  rintro ⟨-, -, hentry⟩
  rw [hwrapper.2] at hentry
  cases hentry

section Children

variable (document : Document)

theorem parentNames_mk (label : Label) (children : List Node) :
    parentNames document (.mk label children) = parentNamesAmong document children := by
  rw [parentNames]

theorem parentNamesAmong_append (front back : List Node) :
    parentNamesAmong document (front ++ back) =
      parentNamesAmong document front ++ parentNamesAmong document back := by
  induction front with
  | nil => rw [List.nil_append, parentNamesAmong, List.nil_append]
  | cons child front ih =>
      rw [List.cons_append, parentNamesAmong, parentNamesAmong, ih, List.append_assoc]

theorem parentNamesAmong_cons (child : Node) (rest : List Node) :
    parentNamesAmong document (child :: rest) =
      parentNamesAmong document [child] ++ parentNamesAmong document rest :=
  parentNamesAmong_append document [child] rest

variable {document}

theorem parentNamesAmong_of_passedOver {node : Node} (hpassed : PassedOver node) :
    parentNamesAmong document [node] = [] := by
  rcases hpassed with hnamed | hnoise
  · simp [parentNamesAmong, hnamed]
  · simp [parentNamesAmong, hnoise]

theorem parentNamesAmong_of_lookedThrough {node : Node} (hwrapper : LookedThrough node) :
    parentNamesAmong document [node] = parentNames document node := by
  obtain ⟨hnamed, hkind⟩ := hwrapper
  simp [parentNamesAmong, hnamed, hkind, isNoise_of_isWrapper hkind]

theorem parentNamesAmong_of_namesParent {node : Node} (hentry : NamesParent node) :
    parentNamesAmong document [node] = typeNames document node := by
  obtain ⟨hnamed, hnoise, hkind⟩ := hentry
  simp [parentNamesAmong, hnamed, hnoise, hkind]

end Children

-- A node below a clause that stands for a parent: all that lies between is looked through.
def EntryAt (clause : Node) (path : Path) (entry : Node) : Prop :=
  path ≠ [] ∧ NamesParent entry ∧
    ∀ depth < path.length, 0 < depth →
      ∀ between ∈ clause.at? (path.take depth), LookedThrough between

instance (clause : Node) (path : Path) (entry : Node) : Decidable (EntryAt clause path entry) :=
  inferInstanceAs (Decidable (_ ∧ _ ∧ _))

-- The parents of a clause in the order of the tree, each with its place.
def entries (clause : Node) : List (Path × Node) :=
  clause.outline.filter fun entry => EntryAt clause entry.1 entry.2

theorem entryAt_singleton {clause entry : Node} {index : Nat} :
    EntryAt clause [index] entry ↔ NamesParent entry := by
  refine ⟨fun hentry => hentry.2.1, fun hentry => ⟨List.cons_ne_nil _ _, hentry, ?_⟩⟩
  intro depth hdepth hpos
  rw [List.length_singleton] at hdepth
  omega

-- A child that is on the way to a parent is looked through itself.
theorem entryAt_cons_iff {clause child entry : Node} {index : Nat} {path : Path}
    (hchild : clause.children[index]? = some child) (hpath : path ≠ []) :
    EntryAt clause (index :: path) entry ↔ LookedThrough child ∧ EntryAt child path entry := by
  have hbelow (depth : Nat) :
      clause.at? ((index :: path).take (depth + 1)) = child.at? (path.take depth) := by
    rw [List.take_succ_cons, Node.at?, hchild, Option.bind_some]
  have hpos : 0 < path.length := List.length_pos_iff.mpr hpath
  constructor
  · rintro ⟨-, hentry, hbetween⟩
    have hhere : LookedThrough child := by
      refine hbetween 1 (by rw [List.length_cons]; omega) (by omega) child ?_
      rw [hbelow 0]
      rfl
    refine ⟨hhere, hpath, hentry, fun depth hdepth _ between hmem => ?_⟩
    refine hbetween (depth + 1) (by rw [List.length_cons]; omega) (by omega) between ?_
    rw [hbelow depth]
    exact hmem
  · rintro ⟨hhere, -, hentry, hbetween⟩
    refine ⟨List.cons_ne_nil _ _, hentry, fun depth hdepth hdepth' between hmem => ?_⟩
    obtain ⟨depth, rfl⟩ : ∃ above, depth = above + 1 := ⟨depth - 1, by omega⟩
    rw [hbelow depth] at hmem
    by_cases hzero : depth = 0
    · rw [hzero] at hmem
      obtain rfl : child = between := Option.some.inj hmem
      exact hhere
    · rw [List.length_cons] at hdepth
      exact hbetween depth (by omega) (by omega) between hmem

theorem not_entryAt_nil (clause entry : Node) : ¬ EntryAt clause [] entry :=
  fun hentry => hentry.1 rfl

-- A node that stands for a parent in a clause. Nodes that only hold parents are looked through.
inductive Entry : Node → Node → Prop
  | here {clause entry : Node} (hentry : entry ∈ clause.namedChildren)
      (hnoise : isNoise entry.kind = false) (hwrapper : isWrapper entry.kind = false) :
      Entry clause entry
  | within {clause wrapper entry : Node} (hwrapped : wrapper ∈ clause.namedChildren)
      (hnoise : isNoise wrapper.kind = false) (hwrapper : isWrapper wrapper.kind = true)
      (hentry : Entry wrapper entry) : Entry clause entry

theorem Entry.exists_entryAt {clause entry : Node} (hentry : Entry clause entry) :
    ∃ path, clause.at? path = some entry ∧ EntryAt clause path entry := by
  induction hentry with
  | @here clause entry hentry hnoise hwrapper =>
      obtain ⟨hchild, hnamed⟩ := List.mem_filter.mp hentry
      obtain ⟨index, hindex⟩ := List.getElem?_of_mem hchild
      refine ⟨[index], Node.at?_cons_eq_some_iff.mpr ⟨entry, hindex, rfl⟩, ?_⟩
      exact entryAt_singleton.mpr ⟨hnamed, hnoise, hwrapper⟩
  | @within clause wrapper entry hwrapped hnoise hwrapper _ ih =>
      obtain ⟨path, hat, hbelow⟩ := ih
      obtain ⟨hchild, hnamed⟩ := List.mem_filter.mp hwrapped
      obtain ⟨index, hindex⟩ := List.getElem?_of_mem hchild
      refine ⟨index :: path, Node.at?_cons_eq_some_iff.mpr ⟨wrapper, hindex, hat⟩, ?_⟩
      exact (entryAt_cons_iff hindex hbelow.1).mpr ⟨⟨hnamed, hwrapper⟩, hbelow⟩

theorem EntryAt.entry {clause entry : Node} {path : Path} (hat : clause.at? path = some entry)
    (hentry : EntryAt clause path entry) : Entry clause entry := by
  induction path generalizing clause with
  | nil => exact absurd hentry (not_entryAt_nil clause entry)
  | cons index path ih =>
      obtain ⟨child, hindex, hbelow⟩ := Node.at?_cons_eq_some_iff.mp hat
      have hchild := List.mem_of_getElem? hindex
      by_cases hpath : path = []
      · subst hpath
        obtain rfl : child = entry := Option.some.inj hbelow
        obtain ⟨hnamed, hnoise, hwrapper⟩ := entryAt_singleton.mp hentry
        exact .here (List.mem_filter.mpr ⟨hchild, hnamed⟩) hnoise hwrapper
      · obtain ⟨⟨hnamed, hwrapper⟩, hinner⟩ := (entryAt_cons_iff hindex hpath).mp hentry
        exact .within (List.mem_filter.mpr ⟨hchild, hnamed⟩) (isNoise_of_isWrapper hwrapper)
          hwrapper (ih hbelow hinner)

theorem entry_iff_entryAt {clause entry : Node} :
    Entry clause entry ↔ ∃ path, clause.at? path = some entry ∧ EntryAt clause path entry :=
  ⟨Entry.exists_entryAt, fun ⟨_, hat, hentry⟩ => hentry.entry hat⟩

theorem outline_eq_cons (node : Node) :
    node.outline = ([], node) :: Node.outlineFrom 0 node.children := by
  cases node
  rw [Node.outline]
  rfl

theorem entries_eq_filter (clause : Node) :
    entries clause = (Node.outlineFrom 0 clause.children).filter
      fun entry => EntryAt clause entry.1 entry.2 := by
  rw [entries, outline_eq_cons, List.filter_cons_of_neg (by simp [not_entryAt_nil])]

-- The parents at or below one child of a clause: the child itself, or those that it wraps.
theorem filter_below_child {clause child : Node} {index : Nat}
    (hchild : clause.children[index]? = some child) :
    (child.outline.map fun entry => (index :: entry.1, entry.2)).filter
        (fun entry => EntryAt clause entry.1 entry.2) =
      (if NamesParent child then [([index], child)] else []) ++
        if LookedThrough child then (entries child).map fun entry => (index :: entry.1, entry.2)
        else [] := by
  have hbelow : ((Node.outlineFrom 0 child.children).map
        fun entry => (index :: entry.1, entry.2)).filter
          (fun entry => EntryAt clause entry.1 entry.2) =
      if LookedThrough child then (entries child).map fun entry => (index :: entry.1, entry.2)
      else [] := by
    have hiff : ∀ entry ∈ Node.outlineFrom 0 child.children,
        EntryAt clause (index :: entry.1) entry.2 ↔
          LookedThrough child ∧ EntryAt child entry.1 entry.2 := by
      rintro ⟨path, entry⟩ hmem
      obtain ⟨step, rest, -, rfl, -⟩ := (Node.mem_outlineFrom _).mp hmem
      exact entryAt_cons_iff hchild (List.cons_ne_nil _ _)
    rw [List.filter_map, entries_eq_filter]
    by_cases hwrapper : LookedThrough child
    · rw [if_pos hwrapper]
      congr 1
      refine List.filter_congr fun entry hmem => ?_
      simp [hiff entry hmem, hwrapper]
    · rw [if_neg hwrapper, List.map_eq_nil_iff, List.filter_eq_nil_iff]
      intro entry hmem
      simp [hiff entry hmem, hwrapper]
  rw [outline_eq_cons, List.map_cons, List.filter_cons, hbelow]
  by_cases hentry : NamesParent child <;> simp [entryAt_singleton, hentry]

section Names

variable (document : Document)

-- The names that nodes stand for, as far as they have any.
def namesOf (found : List (Path × Node)) : List String :=
  (found.map fun entry => Text.typeName (document.text entry.2)).filter (· ≠ "")

theorem namesOf_append (front back : List (Path × Node)) :
    namesOf document (front ++ back) = namesOf document front ++ namesOf document back := by
  rw [namesOf, List.map_append, List.filter_append, namesOf, namesOf]

theorem namesOf_below_child {clause child : Node} {index : Nat}
    (hchild : clause.children[index]? = some child)
    (hnames : namesOf document (entries child) = parentNames document child) :
    namesOf document ((child.outline.map fun entry => (index :: entry.1, entry.2)).filter
        fun entry => EntryAt clause entry.1 entry.2) = parentNamesAmong document [child] := by
  rw [filter_below_child hchild, namesOf_append]
  rcases passedOver_or_lookedThrough_or_namesParent child with hpassed | hwrapper | hentry
  · rw [if_neg hpassed.not_namesParent, if_neg hpassed.not_lookedThrough,
      parentNamesAmong_of_passedOver hpassed]
    rfl
  · have hshift : namesOf document ((entries child).map fun entry => (index :: entry.1, entry.2)) =
        namesOf document (entries child) := by
      rw [namesOf, List.map_map]
      rfl
    rw [if_neg hwrapper.not_namesParent, if_pos hwrapper, hshift, hnames,
      parentNamesAmong_of_lookedThrough hwrapper]
    rfl
  · have hnot : ¬ LookedThrough child := fun hwrapper => hwrapper.not_namesParent hentry
    rw [if_pos hentry, if_neg hnot, parentNamesAmong_of_namesParent hentry]
    exact List.append_nil _

mutual

theorem namesOf_entries :
    ∀ clause : Node, namesOf document (entries clause) = parentNames document clause
  | .mk label children => by
      rw [entries_eq_filter, parentNames_mk]
      exact namesOf_entriesFrom (.mk label children) 0 children rfl

theorem namesOf_entriesFrom (clause : Node) (index : Nat) :
    ∀ nodes : List Node, clause.children.drop index = nodes →
      namesOf document ((Node.outlineFrom index nodes).filter
        fun entry => EntryAt clause entry.1 entry.2) = parentNamesAmong document nodes
  | [], _ => rfl
  | child :: rest, hnodes => by
      have hchild : clause.children[index]? = some child := by
        rw [← List.head?_drop, hnodes]
        rfl
      have hrest : clause.children.drop (index + 1) = rest := by
        rw [← List.tail_drop, hnodes, List.tail_cons]
      rw [Node.outlineFrom, List.filter_append, namesOf_append,
        namesOf_below_child document hchild (namesOf_entries child),
        namesOf_entriesFrom clause (index + 1) rest hrest, ← parentNamesAmong_cons]

end

theorem mem_typeNames_iff {node : Node} {parent : String} :
    parent ∈ typeNames document node ↔
      parent = Text.typeName (document.text node) ∧ parent ≠ "" := by
  simp [typeNames]

theorem mem_parentNames_iff {clause : Node} {parent : String} :
    parent ∈ parentNames document clause ↔
      ∃ entry, Entry clause entry ∧ parent ∈ typeNames document entry := by
  simp only [← namesOf_entries, namesOf, entries, List.mem_filter, List.mem_map, Prod.exists,
    Node.mem_outline, decide_eq_true_eq, mem_typeNames_iff, entry_iff_entryAt]
  constructor
  · rintro ⟨⟨path, entry, hentry, rfl⟩, hne⟩
    exact ⟨entry, ⟨path, hentry⟩, rfl, hne⟩
  · rintro ⟨entry, ⟨path, hentry⟩, rfl, hne⟩
    exact ⟨⟨path, entry, hentry, rfl⟩, hne⟩

end Names

-- Parents do not lie inside each other, so that in a well-formed tree they stand one behind the
-- other in the source.
theorem entries_pairwise {clause : Node} (hwf : clause.WellFormed) :
    (entries clause).Pairwise fun left right => left.2.span.stop ≤ right.2.span.start := by
  have hpaths : (entries clause).Pairwise fun left right => left.1 < right.1 :=
    (Node.outline_pairwise clause).filter _
  refine hpaths.imp_of_mem ?_
  rintro ⟨path, left⟩ ⟨other, right⟩ hleft hright hlt
  obtain ⟨hleft, hentry⟩ := List.mem_filter.mp hleft
  obtain ⟨hright, hother⟩ := List.mem_filter.mp hright
  have hleft := (Node.mem_outline clause).mp hleft
  have hentry : EntryAt clause path left := by simpa using hentry
  have hother : EntryAt clause other right := by simpa using hother
  refine hwf.stop_le_start hleft ((Node.mem_outline clause).mp hright) hlt ?_
  rintro ⟨rest, rfl⟩
  have hrest : rest ≠ [] := by
    rintro rfl
    rw [List.append_nil] at hlt
    exact lt_irrefl _ hlt
  have hwrapper : LookedThrough left := by
    refine hother.2.2 path.length ?_ (List.length_pos_iff.mpr hentry.1) left ?_
    · have hpos := List.length_pos_iff.mpr hrest
      rw [List.length_append]
      omega
    · rw [List.take_left]
      exact hleft
  exact hwrapper.not_namesParent hentry.2.1

-- Lists of nodes that differ in shape only: at any depth, nodes that are passed over may stand in
-- one of them and not in the other, and a run of nodes may be wrapped in one of them.
inductive Reshaped : List Node → List Node → Prop
  | nil : Reshaped [] []
  | node (label : Label) {children others first second : List Node}
      (hbelow : Reshaped children others) (hrest : Reshaped first second) :
      Reshaped (.mk label children :: first) (.mk label others :: second)
  | passed {node : Node} (hpassed : PassedOver node) {first second : List Node}
      (hrest : Reshaped first second) : Reshaped (node :: first) second
  | wrap {wrapper : Node} (hwrapper : LookedThrough wrapper) {first second : List Node}
      (hrest : Reshaped (wrapper.children ++ first) second) : Reshaped (wrapper :: first) second
  | symm {first second : List Node} (hback : Reshaped second first) : Reshaped first second

namespace Reshaped

theorem refl : ∀ nodes : List Node, Reshaped nodes nodes
  | [] => .nil
  | .mk label children :: rest => .node label (refl children) (refl rest)

theorem append_left {first second : List Node} (hrest : Reshaped first second) :
    ∀ front : List Node, Reshaped (front ++ first) (front ++ second)
  | [] => hrest
  | .mk label children :: front => .node label (refl children) (hrest.append_left front)

theorem of_differIn {first second : List Node} (hdiffer : Lists.DifferIn PassedOver first second) :
    Reshaped first second := by
  induction hdiffer with
  | nil => exact .nil
  | both item _ ih => exact ih.append_left [item]
  | left hitem _ ih => exact .passed hitem ih
  | right hitem _ ih => exact .symm (.passed hitem ih.symm)

theorem parentNamesAmong_eq {first second : List Node} (hreshaped : Reshaped first second)
    (document : Document) :
    parentNamesAmong document first = parentNamesAmong document second := by
  induction hreshaped with
  | nil => rfl
  | @node label children others first second _ _ ihbelow ihrest =>
      have hhere : parentNamesAmong document [.mk label children] =
          parentNamesAmong document [.mk label others] := by
        -- Both nodes are of the same sort, and a parent's name does not depend on its children.
        simp only [parentNamesAmong, parentNames_mk, ihbelow]
        rfl
      rw [parentNamesAmong_cons, hhere, ihrest, ← parentNamesAmong_cons]
  | passed hpassed _ ih =>
      rw [parentNamesAmong_cons, parentNamesAmong_of_passedOver hpassed, List.nil_append, ih]
  | @wrap wrapper hwrapper first second _ ih =>
      obtain ⟨label, run⟩ := wrapper
      rw [parentNamesAmong_cons, parentNamesAmong_of_lookedThrough hwrapper, parentNames_mk,
        ← parentNamesAmong_append]
      exact ih
  | symm _ ih => exact ih.symm

end Reshaped

theorem parentNames_of_reshaped {clause other : Node}
    (hreshaped : Reshaped clause.children other.children) (document : Document) :
    parentNames document other = parentNames document clause := by
  obtain ⟨label, children⟩ := clause
  obtain ⟨label', others⟩ := other
  rw [parentNames_mk, parentNames_mk]
  exact (hreshaped.parentNamesAmong_eq document).symm

theorem parentNames_eq_flatMap_alone (document : Document) (label : Label) (children : List Node) :
    parentNames document (.mk label children) =
      children.flatMap fun child => parentNames document (.mk label [child]) := by
  simp only [parentNames_mk]
  induction children with
  | nil => rfl
  | cons child rest ih => rw [parentNamesAmong_cons, List.flatMap_cons, ih]

-- The parents that a clause names are told by the tree below it: each named node that is neither
-- noise nor a wrapper counts, if all that lies between it and the clause are named wrappers. So
-- each child contributes on its own, wrappers and nodes that are passed over make no difference at
-- any depth, and in a well-formed tree the parents stand in the order of the source.
theorem parents_told_by_tree (document : Document) (clause : Node) :
    parentNames document clause =
      ((clause.outline.filter fun entry => EntryAt clause entry.1 entry.2).map fun entry =>
        Text.typeName (document.text entry.2)).filter (· ≠ "") ∧
    parentNames document clause =
      clause.children.flatMap (fun child => parentNames document (.mk clause.label [child])) ∧
    (∀ (front back : List Node) (wrapper : Node), LookedThrough wrapper →
      clause.children = front ++ wrapper.children ++ back →
      parentNames document (.mk clause.label (front ++ wrapper :: back)) =
        parentNames document clause) ∧
    (∀ others, Lists.DifferIn PassedOver clause.children others →
      parentNames document (.mk clause.label others) = parentNames document clause) ∧
    (∀ other : Node, Reshaped clause.children other.children →
      parentNames document other = parentNames document clause) ∧
    (clause.WellFormed →
      (clause.outline.filter fun entry => EntryAt clause entry.1 entry.2).Pairwise
        fun left right => left.2.span.stop ≤ right.2.span.start) := by
  refine ⟨(namesOf_entries document clause).symm, ?_, ?_, ?_, ?_, entries_pairwise⟩
  · obtain ⟨label, children⟩ := clause
    exact parentNames_eq_flatMap_alone document label children
  · intro front back wrapper hwrapper hchildren
    have hwrapped : Reshaped (wrapper :: back) (wrapper.children ++ back) :=
      .wrap hwrapper (.refl _)
    have hreshaped := (hwrapped.append_left front).symm
    rw [← List.append_assoc, ← hchildren] at hreshaped
    exact parentNames_of_reshaped hreshaped document
  · intro others hdiffer
    exact parentNames_of_reshaped (.of_differIn hdiffer) document
  · intro other hreshaped
    exact parentNames_of_reshaped hreshaped document

-- A class that extends one class and implements two interfaces.
def mixedClause : Document where
  source := "class A extends ns.B<T> implements I, J \x7b\x7d"
  root := .branch "class_heritage" none 8 39 [
    .branch "extends_clause" none 8 23 [
      .token "extends" 8 15,
      .branch "member_expression" (some "value") 16 20 [
        .branch "identifier" (some "object") 16 18 [],
        .token "." 18 19,
        .branch "property_identifier" (some "property") 19 20 []],
      .branch "type_arguments" (some "type_arguments") 20 23 [
        .token "<" 20 21,
        .branch "type_identifier" none 21 22 [],
        .token ">" 22 23]],
    .branch "implements_clause" none 24 39 [
      .token "implements" 24 34,
      .branch "type_identifier" none 35 36 [],
      .token "," 36 37,
      .branch "type_identifier" none 38 39 []]]

theorem mixedClause_told_by_tree :
    let clause := mixedClause.root
    let list : Node := .branch "type_list" none 8 39 clause.children
    let comment : Node := .branch "comment" none 39 39 []
    parentNames mixedClause clause = ["ns.B", "I", "J"] ∧
      parentNames mixedClause (.mk clause.label [list]) = ["ns.B", "I", "J"] ∧
      parentNames mixedClause (.mk clause.label (comment :: clause.children)) =
        ["ns.B", "I", "J"] ∧
      (entries clause).Pairwise (fun left right => left.2.span.stop ≤ right.2.span.start) := by
  intro clause list comment
  obtain ⟨-, -, hwrapped, hpadded, -, hordered⟩ := parents_told_by_tree mixedClause clause
  have hparents : parentNames mixedClause clause = ["ns.B", "I", "J"] := by decide +kernel
  have hpassed : PassedOver comment := Or.inr rfl
  have hnoise : Lists.DifferIn PassedOver clause.children (comment :: clause.children) :=
    .right hpassed (.both _ (.both _ .nil))
  refine ⟨hparents, ?_, (hpadded _ hnoise).trans hparents, hordered (by decide +kernel)⟩
  exact (hwrapped [] [] list (by decide) rfl).trans hparents

end ClassAtlas.Heritage
