import Mathlib.Data.List.Lex
import ClassAtlas.Tree.Node

namespace ClassAtlas

-- The way from a node down to another one: which child to take at each step.
abbrev Path := List Nat

-- A node comes before those below it.
theorem Path.lt_of_isPrefix {path below : Path} (hbelow : path <+: below) (hne : path ≠ below) :
    path < below := by
  obtain ⟨rest, rfl⟩ := hbelow
  cases rest with
  | nil => exact absurd (List.append_nil path).symm hne
  | cons index rest => simpa using List.Lex.append_left (· < ·) (.nil (a := index) (l := rest)) path

theorem Path.le_of_isPrefix {path below : Path} (hbelow : path <+: below) : path ≤ below := by
  by_cases heq : path = below
  · exact heq.le
  · exact (lt_of_isPrefix hbelow heq).le

namespace Node

@[simp] theorem children_mk (label : Label) (children : List Node) :
    (mk label children).children = children := rfl

def at? (node : Node) : Path → Option Node
  | [] => some node
  | index :: rest => (node.children[index]?).bind (·.at? rest)

@[simp] theorem at?_nil (node : Node) : node.at? [] = some node := rfl

theorem at?_cons_eq_some_iff {node found : Node} {index : Nat} {rest : Path} :
    node.at? (index :: rest) = some found ↔
      ∃ child, node.children[index]? = some child ∧ child.at? rest = some found := by
  rw [at?, Option.bind_eq_some_iff]

theorem at?_append (node : Node) (path rest : Path) :
    node.at? (path ++ rest) = (node.at? path).bind (·.at? rest) := by
  induction path generalizing node with
  | nil => rfl
  | cons index path ih =>
      simp only [List.cons_append, at?, Option.bind_assoc]
      congr 1
      funext child
      exact ih child

mutual

-- The nodes of a tree in the order of the source, each with the way to it. A node is where
-- it stands: two equal nodes at different places are two entries.
def outline : Node → List (Path × Node)
  | mk label children => ([], mk label children) :: outlineFrom 0 children

def outlineFrom (index : Nat) : List Node → List (Path × Node)
  | [] => []
  | node :: rest =>
      node.outline.map (fun entry => (index :: entry.1, entry.2)) ++ outlineFrom (index + 1) rest

end

mutual

theorem outline_map_snd : ∀ node : Node, node.outline.map (·.2) = node.preorder
  | mk label children => by
      simp only [outline, preorder, List.map_cons, outlineFrom_map_snd 0 children]

theorem outlineFrom_map_snd (index : Nat) :
    ∀ nodes : List Node, (outlineFrom index nodes).map (·.2) = preorderAll nodes
  | [] => rfl
  | node :: rest => by
      simp only [outlineFrom, preorderAll, List.map_append, List.map_map, Function.comp_def,
        outline_map_snd node, outlineFrom_map_snd (index + 1) rest]

end

mutual

theorem mem_outline {path : Path} {found : Node} :
    ∀ node : Node, (path, found) ∈ node.outline ↔ node.at? path = some found
  | mk label children => by
      cases path with
      | nil =>
          have hfrom : ([], found) ∉ outlineFrom 0 children := by
            rw [mem_outlineFrom]
            rintro ⟨_, _, _, hpath, _⟩
            cases hpath
          simp [outline, hfrom, eq_comm]
      | cons index rest =>
          simp only [outline, List.mem_cons, Prod.mk.injEq, List.cons_ne_nil, false_and, false_or,
            at?_cons_eq_some_iff, mem_outlineFrom, children_mk]
          constructor
          · rintro ⟨step, _, child, hpath, hchild, hrest⟩
            obtain ⟨rfl, rfl⟩ := List.cons.inj hpath
            exact ⟨child, by simpa using hchild, hrest⟩
          · rintro ⟨child, hchild, hrest⟩
            exact ⟨index, rest, child, by simp, hchild, hrest⟩

theorem mem_outlineFrom {path : Path} {found : Node} {index : Nat} :
    ∀ nodes : List Node, (path, found) ∈ outlineFrom index nodes ↔
      ∃ step rest child, path = (index + step) :: rest ∧ nodes[step]? = some child ∧
        child.at? rest = some found
  | [] => by simp [outlineFrom]
  | node :: others => by
      simp only [outlineFrom, List.mem_append, List.mem_map, Prod.mk.injEq, Prod.exists,
        mem_outlineFrom others]
      constructor
      · rintro (⟨rest, _, hmem, rfl, rfl⟩ | ⟨step, rest, child, rfl, hchild, hrest⟩)
        · exact ⟨0, rest, node, by simp, rfl, (mem_outline node).mp hmem⟩
        · exact ⟨step + 1, rest, child, by simp; omega, by simpa using hchild, hrest⟩
      · rintro ⟨step, rest, child, rfl, hchild, hrest⟩
        cases step with
        | zero =>
            obtain rfl : node = child := by simpa using hchild
            exact Or.inl ⟨rest, found, (mem_outline node).mpr hrest, by simp, rfl⟩
        | succ step =>
            exact Or.inr ⟨step, rest, child, by simp; omega, by simpa using hchild, hrest⟩

end

theorem mem_preorder {node found : Node} :
    found ∈ node.preorder ↔ ∃ path, node.at? path = some found := by
  simp only [← outline_map_snd, List.mem_map, Prod.exists, exists_eq_right, mem_outline]

theorem mem_preorder_of_child {node child inner : Node} (hchild : child ∈ node.children)
    (hinner : inner ∈ child.preorder) : inner ∈ node.preorder := by
  obtain ⟨index, hindex⟩ := List.mem_iff_getElem?.mp hchild
  obtain ⟨path, hpath⟩ := mem_preorder.mp hinner
  exact mem_preorder.mpr ⟨index :: path, at?_cons_eq_some_iff.mpr ⟨child, hindex, hpath⟩⟩

theorem mem_preorder_of_at? {root node inner : Node} {path : Path}
    (hnode : root.at? path = some node) (hinner : inner ∈ node.preorder) :
    inner ∈ root.preorder := by
  obtain ⟨rest, hrest⟩ := mem_preorder.mp hinner
  refine mem_preorder.mpr ⟨path ++ rest, ?_⟩
  rw [at?_append, hnode, Option.bind_some, hrest]

mutual

-- Along an outline the paths only grow.
theorem outline_pairwise : ∀ node : Node, node.outline.Pairwise (fun a b => a.1 < b.1)
  | mk label children => by
      refine List.pairwise_cons.mpr ⟨?_, outlineFrom_pairwise 0 children⟩
      rintro ⟨path, found⟩ hmem
      obtain ⟨step, rest, -, rfl, -⟩ := (mem_outlineFrom children).mp hmem
      exact List.nil_lt_cons _ _

theorem outlineFrom_pairwise (index : Nat) :
    ∀ nodes : List Node, (outlineFrom index nodes).Pairwise (fun a b => a.1 < b.1)
  | [] => List.Pairwise.nil
  | node :: others => by
      refine List.pairwise_append.mpr ⟨?_, outlineFrom_pairwise (index + 1) others, ?_⟩
      · refine List.pairwise_map.mpr ((outline_pairwise node).imp ?_)
        intro a b h
        exact List.cons_lt_cons_iff.mpr (Or.inr ⟨rfl, h⟩)
      · rintro a ha ⟨path, found⟩ hmem
        obtain ⟨entry, -, rfl⟩ := List.mem_map.mp ha
        obtain ⟨step, rest, -, rfl, -⟩ := (mem_outlineFrom others).mp hmem
        exact List.cons_lt_cons_iff.mpr (Or.inl (by omega))

end

end Node

end ClassAtlas
