import ClassAtlas.Proofs.Query.Match
import ClassAtlas.RuleBook

namespace ClassAtlas

namespace Span

-- The hull of some spans: a range that covers them all and lies in every other one that does.
def Hull (spans : List Span) (range : Span) : Prop :=
  (∀ span ∈ spans, span.Inside range) ∧
    ∀ other : Span, (∀ span ∈ spans, span.Inside other) → range.Inside other

-- The order of ranges: the earlier start first, and of two that start together the longer one.
def Leads (first second : Span) : Prop :=
  first.start < second.start ∨ first.start = second.start ∧ second.stop ≤ first.stop

def Encloses (outer inner : Span) : Prop :=
  inner.Inside outer ∧ inner ≠ outer

theorem Hull.unique {spans : List Span} {range other : Span} (hrange : Hull spans range)
    (hother : Hull spans other) : range = other :=
  (hrange.2 other hother.1).antisymm (hother.2 range hrange.1)

theorem Leads.antisymm {first second : Span} (hfirst : first.Leads second)
    (hsecond : second.Leads first) : first = second := by
  unfold Leads at hfirst hsecond
  apply Span.ext <;> omega

theorem Encloses.not_leads {outer inner : Span} (h : outer.Encloses inner) :
    ¬ inner.Leads outer := by
  obtain ⟨⟨hstart, hstop⟩, hne⟩ := h
  rw [ne_eq, Span.ext_iff] at hne
  unfold Leads
  omega

end Span

namespace Match

-- The range of a match is the hull of what it captures. A match without captures has the empty
-- range at the start of the text.
def HasRange (found : Match) (range : Span) : Prop :=
  if found.captures = [] then range = .zero
  else Span.Hull (found.captures.map (·.2.span)) range

theorem span_hull {found : Match} (hcaptures : found.captures ≠ []) :
    Span.Hull (found.captures.map (·.2.span)) found.span := by
  simp only [Span.Hull, List.forall_mem_map]
  refine ⟨(found.span_inside_iff hcaptures _).mp (.refl _), fun other hother => ?_⟩
  exact (found.span_inside_iff hcaptures other).mpr hother

theorem span_eq_iff (found : Match) (range : Span) : found.span = range ↔ found.HasRange range := by
  unfold HasRange
  split
  · next hnone =>
    have hzero : found.span = .zero := by simp [span, hnone]
    rw [hzero, eq_comm]
  · next hsome =>
    constructor
    · rintro rfl
      exact span_hull hsome
    · exact (span_hull hsome).unique

theorem before_iff_leads (a b : Match) : a.before b = true ↔ a.span.Leads b.span :=
  a.before_iff b

end Match

namespace Query

variable (query : Query) (document : Document)

theorem run_pairwise : (query.run document).Pairwise (fun a b => a.span.Leads b.span) := by
  have hsorted := List.pairwise_mergeSort Match.before_trans Match.before_total
    (query.allMatches document)
  exact hsorted.imp fun {a b} h => (a.before_iff_leads b).mp h

-- Matches with one range come as they are found.
theorem run_filter_span (range : Span) :
    ((query.run document).filter fun found => found.span = range) =
      (query.allMatches document).filter fun found => found.span = range := by
  refine Lists.filter_mergeSort Match.before_trans Match.before_total ?_ _
  intro a b ha hb
  have hspan : a.span = b.span := by simp_all
  rw [Match.before_iff_leads, hspan]
  exact Or.inr ⟨rfl, le_refl _⟩

theorem eq_run_iff (order : List Match) :
    order = query.run document ↔
      order.Pairwise (fun a b => a.span.Leads b.span) ∧
        ∀ range, (order.filter fun found => found.span = range) =
          (query.allMatches document).filter fun found => found.span = range := by
  constructor
  · rintro rfl
    exact ⟨query.run_pairwise document, query.run_filter_span document⟩
  · rintro ⟨hsorted, hties⟩
    have hkey (a b : Match) (hab : a.span.Leads b.span) (hba : b.span.Leads a.span) :
        a.span = b.span := hab.antisymm hba
    refine Lists.eq_of_pairwise_of_filter_eq hkey hsorted (query.run_pairwise document) ?_
    intro range
    rw [hties, run_filter_span]

theorem run_encloses {i j : Nat} {outer inner : Match}
    (houter : (query.run document)[i]? = some outer)
    (hinner : (query.run document)[j]? = some inner) (h : outer.span.Encloses inner.span) :
    i < j := by
  obtain ⟨hi, rfl⟩ := List.getElem?_eq_some_iff.mp houter
  obtain ⟨hj, rfl⟩ := List.getElem?_eq_some_iff.mp hinner
  have hsorted := List.pairwise_iff_getElem.mp (query.run_pairwise document)
  rcases Nat.lt_trichotomy i j with hlt | rfl | hgt
  · exact hlt
  · exact absurd rfl h.2
  · exact absurd (hsorted j i hj hi hgt) h.not_leads

end Query

theorem RuleBook.facts_of_query {α : Type} {book : RuleBook} {aspect : Aspect} {query : Query}
    (hquery : book.query aspect = .ok query) (read : Document → Match → α) (document : Document) :
    book.facts aspect read document = .ok ((query.run document).map (read document)) := by
  rw [facts, hquery]

-- The matches of a query come back in the order of their ranges and none is lost: the list is the
-- only one that is sorted and keeps the matches of each range as they are found. A match around
-- another one comes first, and one fact is read from each match, in this order.
theorem Query.run_in_order_of_ranges (query : Query) (document : Document) :
    (∀ (found : Match) (range : Span), found.span = range ↔ found.HasRange range) ∧
      (query.run document).Perm (query.allMatches document) ∧
      (∀ order : List Match, order = query.run document ↔
        order.Pairwise (fun a b => a.span.Leads b.span) ∧
          ∀ range, (order.filter fun found => found.span = range) =
            (query.allMatches document).filter fun found => found.span = range) ∧
      (∀ (i j : Nat) (outer inner : Match), (query.run document)[i]? = some outer →
        (query.run document)[j]? = some inner → outer.span.Encloses inner.span → i < j) ∧
      ∀ (book : RuleBook) (aspect : Aspect) (α : Type) (read : Document → Match → α),
        book.query aspect = .ok query →
          ∃ facts, book.facts aspect read document = .ok facts ∧
            List.Forall₂ (fun found fact => read document found = fact) (query.run document)
              facts := by
  refine ⟨Match.span_eq_iff, List.mergeSort_perm _ _, query.eq_run_iff document,
    fun i j outer inner => query.run_encloses document, ?_⟩
  intro book aspect α read hquery
  refine ⟨_, RuleBook.facts_of_query hquery read document, ?_⟩
  rw [List.forall₂_map_right_iff, List.forall₂_same]
  exact fun _ _ => rfl

-- A call in which the rules look for the argument first and for the call itself twice. The last
-- rule captures nothing.
def argumentFirst : Query :=
  [⟨.node (.kind "call_expression")
      [.node (.kind "arguments") [.capture "argument" (.ofKind "identifier")]], []⟩,
    ⟨.capture "call" (.ofKind "call_expression"), []⟩,
    ⟨.capture "again" (.ofKind "call_expression"), []⟩,
    ⟨.ofKind "call_expression", []⟩]

def letterArgument : Document where
  source := "f(g)"
  root :=
    .branch "call_expression" none 0 4 [
      .branch "identifier" (some "function") 0 1 [],
      .branch "arguments" (some "arguments") 1 4 [
        .token "(" 1 2,
        .branch "identifier" none 2 3 [],
        .token ")" 3 4]]

theorem argumentFirst_in_order_of_ranges :
    (argumentFirst.allMatches letterArgument).map (·.rule) = [0, 1, 2, 3] ∧
      (argumentFirst.run letterArgument).map (·.rule) = [1, 2, 3, 0] ∧
      (∃ (i j : Nat) (outer inner : Match), (argumentFirst.run letterArgument)[i]? = some outer ∧
        (argumentFirst.run letterArgument)[j]? = some inner ∧
        outer.span.Encloses inner.span ∧ i < j) ∧
      RuleBook.facts ⟨.javascript, fun _ => some (.ok argumentFirst)⟩ .calls
        (fun document found => (found.first? "argument").map document.text) letterArgument =
          .ok [none, none, none, some "g"] := by
  let found (rule : Nat) : Match := ((argumentFirst.allMatches letterArgument)[rule]?).getD ⟨0, []⟩
  have hall : argumentFirst.allMatches letterArgument = [found 0, found 1, found 2, found 3] := rfl
  have hargument : (found 0).span = ⟨2, 3⟩ := rfl
  have hcall : (found 1).span = ⟨0, 4⟩ := rfl
  have hagain : (found 2).span = ⟨0, 4⟩ := rfl
  have hnone : (found 3).span = ⟨0, 0⟩ := rfl
  obtain ⟨-, -, honly, hfirst, hfacts⟩ := Query.run_in_order_of_ranges argumentFirst letterArgument
  have hrun : [found 1, found 2, found 3, found 0] = argumentFirst.run letterArgument := by
    refine (honly _).mpr ⟨?_, ?_⟩
    · simp [hargument, hcall, hagain, hnone, Span.Leads]
    · intro range
      by_cases h : ⟨2, 3⟩ = range
      · subst h
        simp [hall, hargument, hcall, hagain, hnone]
      · simp [hall, hargument, h, List.filter_cons]
  have hencloses : (found 1).span.Encloses (found 0).span := ⟨by decide, by decide⟩
  obtain ⟨facts, hok, hread⟩ := hfacts ⟨.javascript, fun _ => some (.ok argumentFirst)⟩ .calls _
    (fun document found => (found.first? "argument").map document.text) rfl
  rw [← List.forall₂_map_left_iff, List.forall₂_eq_eq_eq] at hread
  rw [← hrun] at hfirst hread ⊢
  refine ⟨rfl, rfl, ⟨0, 3, found 1, found 0, rfl, rfl, hencloses, ?_⟩, ?_⟩
  · exact hfirst 0 3 (found 1) (found 0) rfl rfl hencloses
  · rw [hok, ← hread]
    rfl

end ClassAtlas
