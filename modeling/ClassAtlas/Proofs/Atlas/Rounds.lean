import ClassAtlas.Proofs.Atlas.Link
import ClassAtlas.Proofs.Atlas.Parents

namespace ClassAtlas

-- The two ways to link an atlas.
inductive Linking where
  | parents
  | calls
  deriving DecidableEq

theorem MethodEntry.addCallers_append (usages more : List Usage) (method : MethodEntry) :
    (method.addCallers usages).addCallers more = method.addCallers (usages ++ more) := by
  by_cases husages : usages = [] <;> by_cases hmore : more = [] <;>
    simp [addCallers, husages, hmore]

namespace Atlas

def link (atlas : Atlas) : Linking → Atlas × Nat
  | .parents => atlas.linkParents
  | .calls => atlas.linkCalls

-- A run of linkings, one after the other, with the count of each one.
def linkAll (atlas : Atlas) : List Linking → Atlas × List Nat
  | [] => (atlas, [])
  | linking :: rest =>
      let linked := atlas.link linking
      let last := linked.1.linkAll rest
      (last.1, linked.2 :: last.2)

-- The atlas with its parents linked, or not, and its calls linked in some number of rounds.
-- In each round a method gets the same callers, those that reach it in the atlas itself.
def linkedRounds (atlas : Atlas) (parents : Bool) (rounds : Nat) : Atlas :=
  atlas.mapClasses fun place entry =>
    { entry with
      linked := if parents then some entry.parents else entry.linked
      methods := entry.methods.mapIdx fun k =>
        .addCallers (List.replicate rounds (atlas.callersAt ⟨place.file, place.index, k⟩)).flatten }

theorem callersAt_eq_of_bare {atlas other : Atlas} (h : atlas.bare = other.bare) :
    atlas.callersAt = other.callersAt := by
  funext place
  rw [← links_filter_place, ← links_filter_place, ← links_bare, h, links_bare]

theorem linkedRounds_zero (atlas : Atlas) : atlas.linkedRounds false 0 = atlas := by
  have hkeep : MethodEntry.addCallers [] = fun method => method := rfl
  simp only [linkedRounds, Bool.false_eq_true, if_false, List.replicate_zero, List.flatten_nil,
    hkeep, Lists.mapIdx_keep, mapClasses_id]

theorem linkedRounds_bare (atlas : Atlas) (parents : Bool) (rounds : Nat) :
    (atlas.linkedRounds parents rounds).bare = atlas.bare := by
  refine atlas.bare_mapClasses fun place entry => ?_
  simp only [ClassEntry.bare, ← Lists.mapIdx_const, List.mapIdx_mapIdx, Function.comp_def,
    MethodEntry.addCallers_name]

-- What one more linking does to an atlas that was linked before.
theorem link_parents_linkedRounds (atlas : Atlas) (parents : Bool) (rounds : Nat) :
    (atlas.linkedRounds parents rounds).link .parents =
      (atlas.linkedRounds true rounds, (atlas.link .parents).2) := by
  apply Prod.ext
  · change (atlas.linkedRounds parents rounds).linkParents.1 = _
    simp only [linkParents_fst, linkedRounds, mapClasses_mapClasses, ClassEntry.linkDeclared,
      if_true]
  · change (atlas.linkedRounds parents rounds).linkParents.2 = atlas.linkParents.2
    rw [← linkParents_snd_bare, linkedRounds_bare, linkParents_snd_bare]

theorem link_calls_linkedRounds (atlas : Atlas) (parents : Bool) (rounds : Nat) :
    (atlas.linkedRounds parents rounds).link .calls =
      (atlas.linkedRounds parents (rounds + 1), (atlas.link .calls).2) := by
  have hbare := atlas.linkedRounds_bare parents rounds
  apply Prod.ext
  · change (atlas.linkedRounds parents rounds).linkCalls.1 = _
    rw [linkCalls_fst, callersAt_eq_of_bare hbare, mapMethods_eq_mapClasses]
    simp only [linkedRounds, mapClasses_mapClasses, List.mapIdx_mapIdx, Function.comp_def,
      MethodEntry.addCallers_append, List.replicate_succ', List.flatten_append,
      List.flatten_singleton]
  · change (atlas.linkedRounds parents rounds).links.length = atlas.links.length
    rw [← links_bare, hbare, links_bare]

theorem linkAll_linkedRounds (atlas : Atlas) (linkings : List Linking) (parents : Bool)
    (rounds : Nat) :
    (atlas.linkedRounds parents rounds).linkAll linkings =
      (atlas.linkedRounds (parents || linkings.contains .parents) (rounds + linkings.count .calls),
        linkings.map fun linking => (atlas.link linking).2) := by
  induction linkings generalizing parents rounds with
  | nil => simp [linkAll]
  | cons linking rest ih =>
      cases linking with
      | parents => simp [linkAll, link_parents_linkedRounds, ih]
      | calls => simp [linkAll, link_calls_linkedRounds, ih, Nat.add_assoc, Nat.add_comm 1]

-- The end of a run of linkings shows whether parents were linked and how often calls were, and
-- nothing else of the run: not the order, nor how often parents were linked. Each linking
-- counts what it would count in the atlas from which the run starts.
theorem linkAll_normal_form (atlas : Atlas) (linkings : List Linking) :
    (atlas.linkAll linkings).1 =
        atlas.linkedRounds (linkings.contains .parents) (linkings.count .calls) ∧
      (atlas.linkAll linkings).2 = linkings.map fun linking => (atlas.link linking).2 := by
  have hrun := atlas.linkAll_linkedRounds linkings false 0
  rw [linkedRounds_zero, Bool.false_or, Nat.zero_add] at hrun
  rw [hrun]
  exact ⟨rfl, rfl⟩

theorem heirCalls_linkAll :
    heirCalls.linkAll [.calls, .parents, .calls, .parents] =
      (⟨[⟨"a.ts", [⟨"A", ["B", "Outside"], some ["B", "Outside"], [⟨"k", none⟩],
          [⟨"A", "m", "B"⟩, ⟨"", "m", "B"⟩, ⟨"A", "m", "B"⟩, ⟨"A", "m", "Outside"⟩]⟩]⟩,
        ⟨"b.ts", [⟨"B", [], some [], [⟨"m", none⟩,
          ⟨"m", some [⟨"C", "m", "B"⟩, ⟨"A", "m", "B"⟩, ⟨"A", "m", "B"⟩, ⟨"A", "m", "B"⟩,
            ⟨"A", "m", "B"⟩]⟩], []⟩]⟩]⟩,
        [2, 1, 2, 1]) := by
  obtain ⟨hatlas, hcounts⟩ := linkAll_normal_form heirCalls [.calls, .parents, .calls, .parents]
  have hcalls : (heirCalls.link .calls).2 = 2 := by
    change heirCalls.links.length = 2
    rw [← callersAt_length_sum]
    simp only [callersAt_heirCalls]
    rfl
  have hparents : (heirCalls.link .parents).2 = 1 := by
    change heirCalls.linkParents.2 = 1
    rw [linkParents_snd_eq_countP]
    decide
  apply Prod.ext
  · rw [hatlas]
    simp only [linkedRounds, callersAt_heirCalls]
    rfl
  · simp only [hcounts, List.map_cons, List.map_nil, hcalls, hparents]

end Atlas

end ClassAtlas
