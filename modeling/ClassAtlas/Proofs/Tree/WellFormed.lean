import ClassAtlas.Proofs.Span
import ClassAtlas.Proofs.Tree.Path

namespace ClassAtlas

-- A span that does not reach out of another one at either end.
def Span.Inside (inner outer : Span) : Prop :=
  outer.start ≤ inner.start ∧ inner.stop ≤ outer.stop

instance (inner outer : Span) : Decidable (inner.Inside outer) :=
  inferInstanceAs (Decidable (_ ∧ _))

theorem Span.Inside.refl (span : Span) : span.Inside span :=
  ⟨le_refl _, le_refl _⟩

theorem Span.Inside.trans {a b c : Span} (hab : a.Inside b) (hbc : b.Inside c) : a.Inside c :=
  ⟨hbc.1.trans hab.1, hab.2.trans hbc.2⟩

theorem Span.Inside.antisymm {first second : Span} (hfirst : first.Inside second)
    (hsecond : second.Inside first) : first = second := by
  unfold Inside at hfirst hsecond
  apply Span.ext <;> omega

theorem Span.Inside.eq_of_length_le {inner outer : Span} (hinside : inner.Inside outer)
    (hwidth : inner.start < inner.stop) (hle : outer.length ≤ inner.length) : outer = inner := by
  obtain ⟨hstart, hstop⟩ := hinside
  unfold Span.length at hle
  apply Span.ext <;> omega

namespace Node

-- The children of a node lie inside it, one behind the other.
def Nested (node : Node) : Prop :=
  (∀ child ∈ node.children, child.span.Inside node.span) ∧
    node.children.Pairwise (fun left right => left.span.stop ≤ right.span.start)

instance (node : Node) : Decidable node.Nested :=
  inferInstanceAs (Decidable (_ ∧ _))

def WellFormed (root : Node) : Prop :=
  ∀ node ∈ root.preorder, node.Nested

instance (root : Node) : Decidable root.WellFormed :=
  inferInstanceAs (Decidable (∀ node ∈ root.preorder, node.Nested))

theorem WellFormed.nested {root : Node} (hwf : root.WellFormed) : root.Nested :=
  hwf root (mem_preorder.mpr ⟨[], rfl⟩)

theorem WellFormed.below {root node : Node} (hwf : root.WellFormed) {path : Path}
    (hnode : root.at? path = some node) : node.WellFormed :=
  fun inner hinner => hwf inner (mem_preorder_of_at? hnode hinner)

theorem WellFormed.child {root child : Node} (hwf : root.WellFormed)
    (hchild : child ∈ root.children) : child.WellFormed :=
  fun inner hinner => hwf inner (mem_preorder_of_child hchild hinner)

-- What lies below a node lies inside it.
theorem WellFormed.inside {root below : Node} (hwf : root.WellFormed) {path : Path}
    (hbelow : root.at? path = some below) : below.span.Inside root.span := by
  induction path generalizing root with
  | nil =>
      obtain rfl : root = below := by simpa using hbelow
      exact .refl _
  | cons index path ih =>
      obtain ⟨child, hchild, hrest⟩ := at?_cons_eq_some_iff.mp hbelow
      have hmem := List.mem_of_getElem? hchild
      exact (ih (hwf.child hmem) hrest).trans (hwf.nested.1 child hmem)

-- Of two nodes that do not lie below each other, the first one ends before the other one
-- starts.
theorem WellFormed.stop_le_start {root left right : Node} (hwf : root.WellFormed)
    {path other : Path} (hleft : root.at? path = some left) (hright : root.at? other = some right)
    (hlt : path < other) (hapart : ¬ path <+: other) : left.span.stop ≤ right.span.start := by
  induction path generalizing root other with
  | nil => exact absurd List.nil_prefix hapart
  | cons i path ih =>
      cases other with
      | nil => exact absurd hlt (List.not_lt_nil _)
      | cons j other =>
          obtain ⟨child, hchild, hleft⟩ := at?_cons_eq_some_iff.mp hleft
          obtain ⟨sibling, hsibling, hright⟩ := at?_cons_eq_some_iff.mp hright
          have hwf' := hwf.child (List.mem_of_getElem? hchild)
          obtain hij | ⟨rfl, hbelow⟩ := List.cons_lt_cons_iff.mp hlt
          · have hstop : child.span.stop ≤ sibling.span.start := by
              obtain ⟨hi, rfl⟩ := List.getElem?_eq_some_iff.mp hchild
              obtain ⟨hj, rfl⟩ := List.getElem?_eq_some_iff.mp hsibling
              exact List.pairwise_iff_getElem.mp hwf.nested.2 i j hi hj hij
            have hin := (hwf'.inside hleft).2
            have hin' := ((hwf.child (List.mem_of_getElem? hsibling)).inside hright).1
            omega
          · obtain rfl := Option.some.inj (hchild.symm.trans hsibling)
            refine ih hwf' hleft hright hbelow ?_
            intro habove
            exact hapart (List.cons_prefix_cons.mpr ⟨rfl, habove⟩)

-- The order in which nodes come by their spans: first those that start earlier, then the
-- longer ones, then those that stand earlier in the tree.
def Earlier (root : Node) (path other : Path) : Prop :=
  ∀ a b, root.at? path = some a → root.at? other = some b →
    a.span.start < b.span.start ∨ a.span.start = b.span.start ∧
      (b.span.stop < a.span.stop ∨ b.span.stop = a.span.stop ∧ path < other)

-- For nodes with some width that is the order of the tree.
theorem WellFormed.lt_of_earlier {root a b : Node} (hwf : root.WellFormed) {path other : Path}
    (ha : root.at? path = some a) (hb : root.at? other = some b)
    (hwidth : b.span.start < b.span.stop) (h : root.Earlier path other) : path < other := by
  by_contra hnot
  have hspans := h a b ha hb
  simp only [hnot, and_false, or_false] at hspans
  obtain rfl | hlt := (not_lt.mp hnot).eq_or_lt
  · obtain rfl := Option.some.inj (ha.symm.trans hb)
    omega
  · by_cases habove : other <+: path
    · obtain ⟨rest, rfl⟩ := habove
      rw [at?_append, hb, Option.bind_some] at ha
      obtain ⟨hstart, hstop⟩ := (hwf.below hb).inside ha
      omega
    · have hleft := hwf.stop_le_start hb ha hlt habove
      omega

-- No node has two children in the same field.
def DistinctFields (root : Node) : Prop :=
  ∀ node ∈ root.preorder, (node.children.filterMap field).Nodup

instance (root : Node) : Decidable root.DistinctFields :=
  inferInstanceAs (Decidable (∀ node ∈ root.preorder, (node.children.filterMap field).Nodup))

theorem DistinctFields.below {root node : Node} (hfields : root.DistinctFields) {path : Path}
    (hnode : root.at? path = some node) : node.DistinctFields :=
  fun inner hinner => hfields inner (mem_preorder_of_at? hnode hinner)

theorem DistinctFields.child {root child : Node} (hfields : root.DistinctFields)
    (hchild : child ∈ root.children) : child.DistinctFields :=
  fun inner hinner => hfields inner (mem_preorder_of_child hchild hinner)

theorem DistinctFields.pairwise {root : Node} (hfields : root.DistinctFields) :
    root.children.Pairwise
      (fun a b => ∀ name, a.field = some name → b.field ≠ some name) := by
  have hnodup := hfields root (mem_preorder.mpr ⟨[], rfl⟩)
  refine (List.pairwise_filterMap.mp hnodup).imp ?_
  intro a b h name ha hb
  exact h name ha name hb rfl

def HasChild (node : Node) (field : String) (child : Node) : Prop :=
  child ∈ node.children ∧ child.field = some field

theorem HasChild.unique {node a b : Node} {name : String} (ha : node.HasChild name a)
    (hb : node.HasChild name b)
    (hapart : node.children.Pairwise fun a b => a.field = some name → b.field ≠ some name) :
    a = b := by
  obtain ⟨ha, hafield⟩ := ha
  obtain ⟨hb, hbfield⟩ := hb
  obtain ⟨i, hi, rfl⟩ := List.getElem_of_mem ha
  obtain ⟨j, hj, rfl⟩ := List.getElem_of_mem hb
  rw [List.pairwise_iff_getElem] at hapart
  obtain hij | rfl | hji := Nat.lt_trichotomy i j
  · exact absurd hbfield (hapart i j hi hj hij hafield)
  · rfl
  · exact absurd hafield (hapart j i hj hi hji hbfield)

theorem DistinctFields.eq_of_hasChild {root a b : Node} (hfields : root.DistinctFields)
    {name : String} (ha : root.HasChild name a) (hb : root.HasChild name b) : a = b :=
  ha.unique hb (hfields.pairwise.imp fun hapart => hapart name)

-- A tree is written down with tokens and named nodes. Nothing is missing or broken in it.
def token (kind : String) (start stop : Nat) : Node :=
  mk ⟨kind, none, false, false, false, ⟨start, stop⟩⟩ []

def branch (kind : String) (field : Option String) (start stop : Nat) (children : List Node) :
    Node :=
  mk ⟨kind, field, true, false, false, ⟨start, stop⟩⟩ children

end Node

end ClassAtlas
