import ClassAtlas.Tree.Listing

namespace ClassAtlas.Node

mutual

-- The lines of a tree whose root lies at a depth.
def listing (depth : Nat) : Node → List Line
  | mk label children => ⟨depth, label⟩ :: listingAll (depth + 1) children

def listingAll (depth : Nat) : List Node → List Line
  | [] => []
  | node :: rest => listing depth node ++ listingAll depth rest

end

-- Trees that a listing at a depth leaves alone: the first of them lies no deeper than the
-- parent of the listed nodes.
def Outside (depth : Nat) (trees : List (Nat × Node)) : Prop :=
  ∀ tree ∈ trees.head?, tree.1 ≤ depth

theorem attach_children (depth : Nat) (label : Label) (children : List Node)
    (trees : List (Nat × Node)) (houtside : Outside depth trees) :
    Line.attach ⟨depth, label⟩ (children.map (depth + 1, ·) ++ trees) =
      (depth, mk label children) :: trees := by
  have hinside : ∀ tree ∈ children.map (depth + 1, ·), decide (depth < tree.1) = true := by
    simp
  have hstop : trees.takeWhile (fun tree => decide (depth < tree.1)) = [] ∧
      trees.dropWhile (fun tree => decide (depth < tree.1)) = trees := by
    cases trees with
    | nil => simp
    | cons tree rest =>
        have h : ¬ depth < tree.1 := Nat.not_lt.mpr (houtside tree rfl)
        simp [h]
  have hlabels : (children.map fun child => (depth + 1, child)).map (·.2) = children := by
    rw [List.map_map]
    exact (List.map_congr_left fun _ _ => rfl).trans (List.map_id children)
  simp only [Line.attach, List.takeWhile_append_of_pos hinside,
    List.dropWhile_append_of_pos hinside, hstop.1, hstop.2, List.append_nil, hlabels]

mutual

theorem foldr_attach_listing (depth : Nat) (trees : List (Nat × Node)) :
    ∀ node : Node, Outside depth trees →
      (listing depth node).foldr Line.attach trees = (depth, node) :: trees
  | mk label children, houtside => by
      have hall := foldr_attach_listingAll (depth + 1) trees children
        (fun tree htree => Nat.le_succ_of_le (houtside tree htree))
      simp only [listing, List.foldr_cons, hall]
      exact attach_children depth label children trees houtside

theorem foldr_attach_listingAll (depth : Nat) (trees : List (Nat × Node)) :
    ∀ nodes : List Node, Outside depth trees →
      (listingAll depth nodes).foldr Line.attach trees = nodes.map (depth, ·) ++ trees
  | [], _ => rfl
  | node :: rest, houtside => by
      have hrest := foldr_attach_listingAll depth trees rest houtside
      have hnext : Outside depth (rest.map (depth, ·) ++ trees) := by
        cases rest with
        | nil => exact houtside
        | cons next more => simp [Outside]
      simp only [listingAll, List.foldr_append, hrest,
        foldr_attach_listing depth _ node hnext, List.map_cons, List.cons_append]

end

-- A listing says everything about its tree.
theorem ofListing?_listing (node : Node) : ofListing? (listing 0 node) = some node := by
  simp [ofListing?, foldr_attach_listing 0 [] node (by simp [Outside])]

end ClassAtlas.Node
