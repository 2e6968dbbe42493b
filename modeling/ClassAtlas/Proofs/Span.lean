import ClassAtlas.Proofs.Lists
import ClassAtlas.Span

namespace ClassAtlas.Span

attribute [ext] Span

theorem contains_iff (span : Span) (offset : Nat) :
    span.contains offset = true ↔ span.start ≤ offset ∧ offset < span.stop := by
  simp [contains]

theorem start_lt_stop_of_contains {span : Span} {offset : Nat}
    (h : span.contains offset = true) : span.start < span.stop := by
  rw [contains_iff] at h
  omega

-- A numbered span that is shorter than another one, or as long and not behind it.
private def NotAfter (best other : Span × Nat) : Prop :=
  best.1.length < other.1.length ∨ best.1.length = other.1.length ∧ best.2 ≤ other.2

-- The invariant of the search: what has been found is one of the spans, and none of them
-- comes before it.
private theorem foldl_shorter (first : Span × Nat) (rest : List (Span × Nat))
    (hsorted : (first :: rest).Pairwise (fun a b => a.2 < b.2)) :
    rest.foldl shorter first ∈ first :: rest ∧
      ∀ other ∈ first :: rest, NotAfter (rest.foldl shorter first) other := by
  induction rest generalizing first with
  | nil => simp [NotAfter]
  | cons next rest ih =>
      obtain ⟨hfirst, hnext, hrest⟩ := by
        simpa only [List.pairwise_cons, List.mem_cons, forall_eq_or_imp] using hsorted
      have hbetter : (shorter first next = first ∨ shorter first next = next) ∧
          NotAfter (shorter first next) first ∧ NotAfter (shorter first next) next := by
        unfold shorter NotAfter
        split <;> simp <;> omega
      obtain ⟨hone, hbest, hbest'⟩ := hbetter
      have hsorted' : (shorter first next :: rest).Pairwise (fun a b => a.2 < b.2) := by
        refine List.pairwise_cons.mpr ⟨?_, hrest⟩
        intro other hother
        obtain h | h := hone
        · rw [h]; exact hfirst.2 other hother
        · rw [h]; exact hnext other hother
      obtain ⟨hmem, hmin⟩ := ih (shorter first next) hsorted'
      have hmin' := hmin _ (List.mem_cons_self ..)
      rw [List.foldl_cons]
      refine ⟨?_, ?_⟩
      · obtain h | h := List.mem_cons.mp hmem
        · rw [h]
          obtain h' | h' := hone <;> rw [h'] <;> simp
        · simp [h]
      · intro other hother
        simp only [List.mem_cons] at hother
        unfold NotAfter at hmin' hbest hbest' ⊢
        obtain rfl | rfl | hother := hother
        · omega
        · omega
        · exact hmin other (List.mem_cons_of_mem _ hother)

private theorem mem_containing {spans : List Span} {offset : Nat} {entry : Span × Nat} :
    entry ∈ spans.zipIdx.filter (fun entry => entry.1.contains offset) ↔
      spans[entry.2]? = some entry.1 ∧ entry.1.contains offset = true := by
  rw [List.mem_filter, List.mem_zipIdx_iff_getElem?]

theorem innermost?_eq_none_iff (spans : List Span) (offset : Nat) :
    innermost? spans offset = none ↔ ∀ span ∈ spans, ¬ span.contains offset = true := by
  unfold innermost?
  cases hfound : spans.zipIdx.filter (fun entry => entry.1.contains offset) with
  | nil =>
      simp only [true_iff]
      intro span hspan hin
      obtain ⟨index, hindex⟩ := List.mem_iff_getElem?.mp hspan
      have hmem : (span, index) ∈ spans.zipIdx.filter (fun entry => entry.1.contains offset) :=
        mem_containing.mpr ⟨hindex, hin⟩
      simp [hfound] at hmem
  | cons first rest =>
      simp only [reduceCtorEq, false_iff]
      intro hnone
      have hmem : first ∈ spans.zipIdx.filter (fun entry => entry.1.contains offset) := by
        simp [hfound]
      obtain ⟨hindex, hin⟩ := mem_containing.mp hmem
      exact hnone first.1 (List.mem_of_getElem? hindex) hin

-- The innermost span is the first of the shortest ones around the offset.
theorem innermost?_spec {spans : List Span} {offset index : Nat}
    (h : innermost? spans offset = some index) :
    ∃ span, spans[index]? = some span ∧ span.contains offset = true ∧
      ∀ (i : Nat) (other : Span), spans[i]? = some other → other.contains offset = true →
        span.length < other.length ∨ span.length = other.length ∧ index ≤ i := by
  unfold innermost? at h
  cases hfound : spans.zipIdx.filter (fun entry => entry.1.contains offset) with
  | nil => simp [hfound] at h
  | cons first rest =>
      simp only [hfound, Option.some.injEq] at h
      have hsorted : (first :: rest).Pairwise (fun a b => a.2 < b.2) := by
        rw [← hfound]
        exact (Lists.zipIdx_pairwise spans).filter _
      obtain ⟨hmem, hmin⟩ := foldl_shorter first rest hsorted
      rw [← hfound] at hmem hmin
      obtain ⟨hindex, hin⟩ := mem_containing.mp hmem
      refine ⟨(rest.foldl shorter first).1, h ▸ hindex, hin, ?_⟩
      intro i other hother hin'
      subst h
      exact hmin (other, i) (mem_containing.mpr ⟨hother, hin'⟩)

end ClassAtlas.Span
