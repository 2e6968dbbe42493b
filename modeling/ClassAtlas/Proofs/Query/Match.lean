import Mathlib.Data.List.Forall2
import ClassAtlas.Proofs.Lists
import ClassAtlas.Proofs.Pattern.Fit
import ClassAtlas.Query.Match

namespace ClassAtlas

theorem Match.before_iff (a b : Match) :
    a.before b = true ↔
      a.span.start < b.span.start ∨ a.span.start = b.span.start ∧ b.span.stop ≤ a.span.stop := by
  simp [before]

theorem Match.before_trans (a b c : Match) (hab : a.before b = true) (hbc : b.before c = true) :
    a.before c = true := by
  rw [before_iff] at *
  omega

theorem Match.before_total (a b : Match) : (a.before b || b.before a) = true := by
  rw [Bool.or_eq_true, before_iff, before_iff]
  omega

-- A span that is widened step by step lies inside another one just when everything that it was
-- widened to does.
private theorem foldl_inside_iff (first : Span) (rest : List Span) (range : Span) :
    (rest.foldl (fun a b => ⟨min a.start b.start, max a.stop b.stop⟩) first).Inside range ↔
      ∀ span ∈ first :: rest, span.Inside range := by
  induction rest generalizing first with
  | nil => simp
  | cons next rest ih =>
      rw [List.foldl_cons, ih]
      simp only [List.forall_mem_cons, Span.Inside]
      constructor
      · rintro ⟨hboth, hrest⟩
        exact ⟨by omega, by omega, hrest⟩
      · rintro ⟨hfirst, hnext, hrest⟩
        exact ⟨by omega, hrest⟩

theorem Match.span_inside_iff (found : Match) (hcaptures : found.captures ≠ []) (range : Span) :
    found.span.Inside range ↔ ∀ item ∈ found.captures, item.2.span.Inside range := by
  unfold Match.span
  cases hspans : found.captures.map (·.2.span) with
  | nil => exact absurd (List.map_eq_nil_iff.mp hspans) hcaptures
  | cons first rest =>
      change (rest.foldl _ first).Inside range ↔ _
      rw [foldl_inside_iff, ← hspans, List.forall_mem_map]

-- A match that captures its root and other nodes inside it has the span of the root.
theorem Match.span_eq_of_inside (rule : Nat) (name : String) (root : Node)
    (captures : List Capture) (hinside : ∀ item ∈ captures, item.2.span.Inside root.span) :
    (Match.mk rule ((name, root) :: captures)).span = root.span := by
  have hspan := span_inside_iff ⟨rule, (name, root) :: captures⟩ (List.cons_ne_nil _ _)
  have hin := (hspan root.span).mpr (List.forall_mem_cons.mpr ⟨.refl _, hinside⟩)
  exact hin.antisymm ((hspan _).mp (.refl _) (name, root) (List.mem_cons_self ..))

namespace Query

variable {query : Query} {document : Document}

theorem mem_matchesAt {root : Node} {found : Match} :
    found ∈ query.matchesAt document root ↔
      ∃ rule, query[found.rule]? = some rule ∧ found.captures ∈ rule.pattern.fits root ∧
        rule.conditions.all (·.holds document found) = true := by
  simp only [matchesAt, List.mem_flatMap, Prod.exists, List.mem_zipIdx_iff_getElem?,
    List.mem_filter, List.mem_map]
  constructor
  · rintro ⟨rule, index, hrule, ⟨captures, hfits, rfl⟩, hholds⟩
    exact ⟨rule, hrule, hfits, hholds⟩
  · rintro ⟨rule, hrule, hfits, hholds⟩
    exact ⟨rule, found.rule, hrule, ⟨found.captures, hfits, rfl⟩, hholds⟩

theorem matchesAt_length_le_one {root : Node}
    (hrules : ∀ rule ∈ query, (rule.pattern.fits root).length ≤ 1)
    (halone : query.Pairwise (fun a b => a.pattern.fits root = [] ∨ b.pattern.fits root = [])) :
    (query.matchesAt document root).length ≤ 1 := by
  refine Lists.flatMap_length_le_one ?_ ?_
  · have hrule : (query.zipIdx.map (·.1)).Pairwise
        (fun a b => a.pattern.fits root = [] ∨ b.pattern.fits root = []) := by
      rwa [List.zipIdx_map_fst]
    refine (List.pairwise_map.mp hrule).imp ?_
    rintro a b (h | h)
    · exact Or.inl (by simp [h])
    · exact Or.inr (by simp [h])
  · rintro ⟨rule, index⟩ hmem
    have hlength := hrules rule (List.fst_mem_of_mem_zipIdx hmem)
    have hfilter := List.length_filter_le (fun found : Match =>
      rule.conditions.all (·.holds document found)) ((rule.pattern.fits root).map (Match.mk index))
    rw [List.length_map] at hfilter
    exact hfilter.trans hlength

theorem span_of_root_capture {root : Node} (hwf : root.WellFormed) {name : String}
    (hquery : ∀ rule ∈ query, ∃ pattern, rule.pattern = .capture name pattern) {found : Match}
    (hfound : found ∈ query.matchesAt document root) : found.span = root.span := by
  obtain ⟨rule, hrule, hfits, -⟩ := mem_matchesAt.mp hfound
  obtain ⟨pattern, hpattern⟩ := hquery rule (List.mem_of_getElem? hrule)
  rw [hpattern] at hfits
  obtain ⟨inner, hinner, hcaptures⟩ := Pattern.mem_fits_capture.mp hfits
  obtain ⟨index, captures⟩ := found
  dsimp only at hcaptures
  subst hcaptures
  refine Match.span_eq_of_inside index name root inner fun item hitem => ?_
  obtain ⟨path, hpath⟩ := Node.mem_preorder.mp (Pattern.fits_below _ _ _ hinner item hitem)
  exact hwf.inside hpath

theorem mem_run {found : Match} :
    found ∈ query.run document ↔
      ∃ path root, document.root.at? path = some root ∧ found ∈ query.matchesAt document root := by
  simp only [run, List.mem_mergeSort, allMatches, List.mem_flatMap, Node.mem_preorder]
  exact ⟨fun ⟨root, ⟨path, hroot⟩, hfound⟩ => ⟨path, root, hroot, hfound⟩,
    fun ⟨path, root, hroot, hfound⟩ => ⟨root, ⟨path, hroot⟩, hfound⟩⟩

end Query

-- A match with the place of its root and the place of the node that it tells about, which
-- stands somewhere below the root.
structure Sighting where
  root : Path
  place : Path
  found : Match

namespace Sighting

variable {query : Query} {document : Document} {about : Node → List (Path × Match)}

-- What is seen when the matches with a given root are listed, each one with the way from the
-- root down to the node that it tells about.
def SeenBy (about : Node → List (Path × Match)) (document : Document) (sighting : Sighting) :
    Prop :=
  ∃ root way, document.root.at? sighting.root = some root ∧ (way, sighting.found) ∈ about root ∧
    sighting.place = sighting.root ++ way

def all (about : Node → List (Path × Match)) (document : Document) : List Sighting :=
  document.root.outline.flatMap fun entry =>
    (about entry.2).map fun item => ⟨entry.1, entry.1 ++ item.1, item.2⟩

theorem mem_all {sighting : Sighting} :
    sighting ∈ all about document ↔ sighting.SeenBy about document := by
  simp only [all, List.mem_flatMap, List.mem_map, Prod.exists, Node.mem_outline]
  constructor
  · rintro ⟨path, root, hroot, way, found, hfound, rfl⟩
    exact ⟨root, way, hroot, hfound, rfl⟩
  · rintro ⟨root, way, hroot, hfound, hplace⟩
    exact ⟨sighting.root, root, hroot, way, sighting.found, hfound, by rw [← hplace]⟩

theorem all_map_found (habout : ∀ root, (about root).map (·.2) = query.matchesAt document root) :
    (all about document).map (·.found) = query.allMatches document := by
  simp only [all, List.map_flatMap, List.map_map, Function.comp_def, habout, Query.allMatches,
    ← Node.outline_map_snd, List.flatMap_map]

-- The sightings come by their roots, and those with the same root tell about different nodes.
theorem all_pairwise
    (hdistinct : ∀ path root, document.root.at? path = some root →
      (about root).Pairwise (fun a b => a.1 ≠ b.1)) :
    (all about document).Pairwise
      (fun a b => a.root < b.root ∨ a.root = b.root ∧ a.place ≠ b.place) := by
  refine List.pairwise_flatMap.mpr ⟨?_, ?_⟩
  · intro entry hmem
    have hways := hdistinct entry.1 entry.2 ((Node.mem_outline _).mp hmem)
    refine List.pairwise_map.mpr (hways.imp ?_)
    intro a b hne
    exact Or.inr ⟨rfl, fun heq => hne (List.append_cancel_left heq)⟩
  · refine document.root.outline_pairwise.imp ?_
    rintro a b hlt x hx y hy
    obtain ⟨_, _, rfl⟩ := List.mem_map.mp hx
    obtain ⟨_, _, rfl⟩ := List.mem_map.mp hy
    exact Or.inl hlt

-- The matches of a query as sightings, in the order of the spans. Where spans do not decide,
-- the roots do.
theorem exists_order
    (habout : ∀ root, (about root).map (·.2) = query.matchesAt document root)
    (hdistinct : ∀ path root, document.root.at? path = some root →
      (about root).Pairwise (fun a b => a.1 ≠ b.1)) :
    ∃ order : List Sighting, order.map (·.found) = query.run document ∧
      (∀ sighting, sighting ∈ order ↔ sighting.SeenBy about document) ∧
      order.Pairwise (fun a b => (a.root = b.root → a.place ≠ b.place) ∧
        a.found.before b.found = true ∧ (b.found.before a.found = true → a.root ≤ b.root)) := by
  let before (a b : Sighting) : Bool := a.found.before b.found
  have hall := all_pairwise hdistinct
  have hsorted := @Lists.mergeSort_pairwise_stable _ before
    (fun a b c => Match.before_trans a.found b.found c.found)
    (fun a b => Match.before_total a.found b.found) _ _ hall
  have hapart : ((all about document).mergeSort before).Pairwise
      (fun a b => a.root = b.root → a.place ≠ b.place) := by
    refine (List.mergeSort_perm _ _).symm.pairwise (hall.imp ?_) ?_
    · rintro a b (hlt | ⟨-, hne⟩) hroot
      · exact absurd hroot hlt.ne
      · exact hne
    · intro a b h hroot
      exact (h hroot.symm).symm
  refine ⟨(all about document).mergeSort before, ?_, ?_, ?_⟩
  · rw [Query.run, ← all_map_found habout]
    exact List.map_mergeSort fun _ _ _ _ => rfl
  · intro sighting
    rw [List.mem_mergeSort, mem_all]
  · refine (hapart.and hsorted).imp ?_
    rintro a b ⟨hne, hle, htie⟩
    refine ⟨hne, hle, fun hback => ?_⟩
    obtain hlt | ⟨heq, -⟩ := htie hback
    · exact hlt.le
    · exact heq.le

end Sighting

namespace Query

variable {query : Query} {document : Document}

-- When each node is the root of one match at most, and each match has the span of its root,
-- the matches of a query come in the order of their roots: by their starts, the longer one
-- first, and otherwise as they stand in the tree.
theorem exists_order
    (hone : ∀ path root, document.root.at? path = some root →
      (query.matchesAt document root).length ≤ 1)
    (hspan : ∀ path root, document.root.at? path = some root →
      ∀ found ∈ query.matchesAt document root, found.span = root.span) :
    ∃ order : List Path, order.Nodup ∧
      (∀ path, path ∈ order ↔
        ∃ root, document.root.at? path = some root ∧ query.matchesAt document root ≠ []) ∧
      List.Forall₂ (fun path found => ∃ root, document.root.at? path = some root ∧
        found ∈ query.matchesAt document root) order (query.run document) ∧
      order.Pairwise document.root.Earlier := by
  -- each match tells about its root
  let about (root : Node) : List (Path × Match) :=
    (query.matchesAt document root).map fun found => ([], found)
  have habout (root : Node) : (about root).map (·.2) = query.matchesAt document root := by
    simp only [about, List.map_map]
    exact List.map_id _
  have hdistinct (path : Path) (root : Node) (hroot : document.root.at? path = some root) :
      (about root).Pairwise (fun a b => a.1 ≠ b.1) := by
    have hlength := hone path root hroot
    rw [← habout, List.length_map] at hlength
    exact Lists.pairwise_of_length_le_one hlength
  obtain ⟨order, hrun, hmem, hsorted⟩ := Sighting.exists_order habout hdistinct
  have hseen (sighting : Sighting) : sighting ∈ order ↔
      sighting.place = sighting.root ∧ ∃ root, document.root.at? sighting.root = some root ∧
        sighting.found ∈ query.matchesAt document root := by
    rw [hmem]
    constructor
    · rintro ⟨root, _, hroot, hfound, hplace⟩
      obtain ⟨_, hfound, heq⟩ := List.mem_map.mp hfound
      obtain ⟨rfl, rfl⟩ := Prod.mk.inj heq
      exact ⟨by simpa using hplace, root, hroot, hfound⟩
    · rintro ⟨hplace, root, hroot, hfound⟩
      exact ⟨root, [], hroot, List.mem_map.mpr ⟨_, hfound, rfl⟩, by simpa using hplace⟩
  refine ⟨order.map (·.root), ?_, ?_, ?_, ?_⟩
  · refine List.pairwise_map.mpr (hsorted.imp_of_mem ?_)
    rintro a b ha hb ⟨hne, -⟩ hroot
    rw [((hseen a).mp ha).1, ((hseen b).mp hb).1] at hne
    exact hne hroot hroot
  · intro path
    simp only [List.mem_map, hseen]
    constructor
    · rintro ⟨sighting, ⟨-, root, hroot, hfound⟩, rfl⟩
      exact ⟨root, hroot, List.ne_nil_of_mem hfound⟩
    · rintro ⟨root, hroot, hne⟩
      obtain ⟨found, hfound⟩ := List.exists_mem_of_ne_nil _ hne
      exact ⟨⟨path, path, found⟩, ⟨rfl, root, hroot, hfound⟩, rfl⟩
  · rw [← hrun, List.forall₂_map_left_iff, List.forall₂_map_right_iff, List.forall₂_same]
    intro sighting hsighting
    exact ((hseen sighting).mp hsighting).2
  · refine List.pairwise_map.mpr (hsorted.imp_of_mem ?_)
    rintro a b ha hb ⟨hne, hle, htie⟩ x y hx hy
    obtain ⟨hplace, _, hroot, hfound⟩ := (hseen a).mp ha
    obtain ⟨hplace', _, hroot', hother⟩ := (hseen b).mp hb
    obtain rfl := Option.some.inj (hx.symm.trans hroot)
    obtain rfl := Option.some.inj (hy.symm.trans hroot')
    have hapart : a.root ≠ b.root := fun heq => hne heq (by rw [hplace, hplace', heq])
    simp only [Match.before_iff, hspan _ x hx _ hfound, hspan _ y hy _ hother] at hle htie
    by_cases hback : y.span.start < x.span.start ∨
        y.span.start = x.span.start ∧ x.span.stop ≤ y.span.stop
    · have hsame : x.span.start = y.span.start ∧ y.span.stop = x.span.stop := by omega
      exact Or.inr ⟨hsame.1, Or.inr ⟨hsame.2, lt_of_le_of_ne (htie hback) hapart⟩⟩
    · have hstrict : x.span.start < y.span.start ∨
          x.span.start = y.span.start ∧ y.span.stop < x.span.stop := by omega
      exact hstrict.imp id (And.imp id Or.inl)

end Query

end ClassAtlas
