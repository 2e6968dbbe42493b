import Mathlib.Order.Bounds.Basic
import ClassAtlas.Extraction
import ClassAtlas.Proofs.Tree.WellFormed

namespace ClassAtlas

namespace Span

def offsets (span : Span) : Set Nat := {offset | span.contains offset = true}

-- Two spans, one of which holds all offsets of the other, or which have no offset in common. A
-- span without offsets stands so to every other one, wherever its ends are.
def NestedOrApart (first second : Span) : Prop :=
  first.offsets ⊆ second.offsets ∨ second.offsets ⊆ first.offsets ∨
    ∀ offset ∈ first.offsets, offset ∉ second.offsets

theorem mem_offsets {span : Span} {offset : Nat} :
    offset ∈ span.offsets ↔ span.start ≤ offset ∧ offset < span.stop :=
  span.contains_iff offset

theorem NestedOrApart.refl (span : Span) : span.NestedOrApart span :=
  Or.inl (Set.Subset.refl _)

theorem NestedOrApart.symm {first second : Span} (h : first.NestedOrApart second) :
    second.NestedOrApart first := by
  rcases h with hin | hout | hapart
  · exact Or.inr (Or.inl hin)
  · exact Or.inl hout
  · exact Or.inr (Or.inr fun offset hsecond hfirst => hapart offset hfirst hsecond)

-- The ends of a span with offsets can be told from its offsets.
theorem inside_of_offsets_subset {inner outer : Span} (hwidth : inner.start < inner.stop)
    (h : inner.offsets ⊆ outer.offsets) : inner.Inside outer := by
  have hfirst := mem_offsets.mp (h (mem_offsets.mpr ⟨le_refl inner.start, hwidth⟩))
  have hlast : inner.stop - 1 ∈ outer.offsets := h (mem_offsets.mpr ⟨by omega, by omega⟩)
  rw [mem_offsets] at hlast
  exact ⟨hfirst.1, by omega⟩

theorem Inside.offsets_subset {inner outer : Span} (h : inner.Inside outer) :
    inner.offsets ⊆ outer.offsets := by
  intro offset hoffset
  rw [mem_offsets] at hoffset ⊢
  unfold Inside at h
  omega

theorem offsets_apart_iff {first second : Span} :
    (∀ offset ∈ first.offsets, offset ∉ second.offsets) ↔
      first.stop ≤ first.start ∨ second.stop ≤ second.start ∨
        first.stop ≤ second.start ∨ second.stop ≤ first.start := by
  simp only [mem_offsets]
  constructor
  · intro hapart
    -- the later of the two starts would be a common offset
    have hstart := hapart (max first.start second.start)
    omega
  · intro h offset hfirst
    omega

theorem nestedOrApart_iff {first second : Span} :
    first.NestedOrApart second ↔
      first.stop ≤ first.start ∨ second.stop ≤ second.start ∨ first.Inside second ∨
        second.Inside first ∨ first.stop ≤ second.start ∨ second.stop ≤ first.start := by
  constructor
  · rintro (hin | hout | hapart)
    · rcases Nat.lt_or_ge first.start first.stop with hwidth | hempty
      · exact Or.inr (Or.inr (Or.inl (inside_of_offsets_subset hwidth hin)))
      · exact Or.inl hempty
    · rcases Nat.lt_or_ge second.start second.stop with hwidth | hempty
      · exact Or.inr (Or.inr (Or.inr (Or.inl (inside_of_offsets_subset hwidth hout))))
      · exact Or.inr (Or.inl hempty)
    · rw [offsets_apart_iff] at hapart
      tauto
  · intro h
    by_cases hin : first.Inside second
    · exact Or.inl hin.offsets_subset
    by_cases hout : second.Inside first
    · exact Or.inr (Or.inl hout.offsets_subset)
    · refine Or.inr (Or.inr (offsets_apart_iff.mpr ?_))
      tauto

instance (first second : Span) : Decidable (first.NestedOrApart second) :=
  decidable_of_iff _ nestedOrApart_iff.symm

-- Of two spans around one offset, a span that is not longer lies inside the other one.
theorem NestedOrApart.inside {span other : Span} (h : span.NestedOrApart other) {offset : Nat}
    (hspan : span.contains offset = true) (hother : other.contains offset = true)
    (hlength : span.length ≤ other.length) : span.Inside other := by
  rcases h with hin | hout | hapart
  · exact inside_of_offsets_subset (start_lt_stop_of_contains hspan) hin
  · have hwidth := start_lt_stop_of_contains hother
    rw [(inside_of_offsets_subset hwidth hout).eq_of_length_le hwidth hlength]
    exact .refl _
  · exact absurd hother (hapart offset hspan)

end Span

namespace Facts

variable {facts moved : Facts} {offset index : Nat} {decl : ClassDecl}

theorem owner?_eq_none_iff :
    facts.owner? offset = none ↔ ∀ decl ∈ facts.classes, decl.span.contains offset = false := by
  simp [owner?, Span.innermost?_eq_none_iff]

theorem exists_owner? (hdecl : decl ∈ facts.classes) (hin : decl.span.contains offset = true) :
    ∃ owner, facts.owner? offset = some owner := by
  rw [← Option.isSome_iff_exists, Option.isSome_iff_ne_none, Ne, owner?_eq_none_iff]
  intro hnone
  rw [hnone decl hdecl] at hin
  cases hin

-- A class around an offset when no class around it is shorter.
def Shortest (facts : Facts) (offset : Nat) (decl : ClassDecl) : Prop :=
  decl ∈ facts.classes ∧ decl.span.contains offset = true ∧
    ∀ other ∈ facts.classes, other.span.contains offset = true →
      decl.span.length ≤ other.span.length

-- The positions of the shortest classes around an offset.
def shortestAt (facts : Facts) (offset : Nat) : Set Nat :=
  {index | ∃ decl, facts.classes[index]? = some decl ∧ facts.Shortest offset decl}

theorem isLeast_of_owner? (howner : facts.owner? offset = some index) :
    IsLeast (facts.shortestAt offset) index := by
  obtain ⟨span, hspan, hin, hmin⟩ := Span.innermost?_spec howner
  rw [List.getElem?_map] at hspan
  obtain ⟨decl, hdecl, rfl⟩ := Option.map_eq_some_iff.mp hspan
  have hbest (i : Nat) (other : ClassDecl) (hother : facts.classes[i]? = some other)
      (hin' : other.span.contains offset = true) :
      decl.span.length < other.span.length ∨ decl.span.length = other.span.length ∧ index ≤ i :=
    hmin i other.span (by rw [List.getElem?_map, hother]; rfl) hin'
  refine ⟨⟨decl, hdecl, List.mem_of_getElem? hdecl, hin, ?_⟩, ?_⟩
  · intro other hother hin'
    obtain ⟨i, hi⟩ := List.mem_iff_getElem?.mp hother
    have hcompare := hbest i other hi hin'
    omega
  · rintro i ⟨other, hother, -, hin', hshort⟩
    have hle := hshort decl (List.mem_of_getElem? hdecl) hin
    have hcompare := hbest i other hother hin'
    omega

theorem owner?_eq_some_iff :
    facts.owner? offset = some index ↔ IsLeast (facts.shortestAt offset) index := by
  constructor
  · exact isLeast_of_owner?
  · intro hleast
    obtain ⟨⟨decl, -, hdecl, hin, -⟩, -⟩ := id hleast
    obtain ⟨found, howner⟩ := exists_owner? hdecl hin
    rw [howner, (isLeast_of_owner? howner).unique hleast]

-- A class without offsets is shorter than every owner.
theorem Shortest.length_lt (hdecl : facts.Shortest offset decl) {other : ClassDecl}
    (hempty : other.span.stop ≤ other.span.start) : other.span.length < decl.span.length := by
  have hwidth := Span.start_lt_stop_of_contains hdecl.2.1
  unfold Span.length
  omega

theorem Shortest.of_perm (hdecl : facts.Shortest offset decl)
    (hperm : moved.classes.Perm facts.classes) : moved.Shortest offset decl := by
  obtain ⟨hmem, hin, hshort⟩ := hdecl
  refine ⟨hperm.mem_iff.mpr hmem, hin, fun other hother => ?_⟩
  exact hshort other (hperm.mem_iff.mp hother)

-- Any two classes lie one inside the other or apart.
def Laminar (facts : Facts) : Prop :=
  facts.classes.Pairwise fun a b => a.span.NestedOrApart b.span

instance (facts : Facts) : Decidable facts.Laminar :=
  inferInstanceAs (Decidable (List.Pairwise _ _))

theorem Laminar.inside (hlaminar : facts.Laminar) (hdecl : facts.Shortest offset decl)
    {other : ClassDecl} (hother : other ∈ facts.classes)
    (hin : other.span.contains offset = true) : decl.span.Inside other.span := by
  have hsymm : Std.Symm fun a b : ClassDecl => a.span.NestedOrApart b.span :=
    ⟨fun _ _ h => h.symm⟩
  have hpair : decl.span.NestedOrApart other.span :=
    hlaminar.forall_of_forall (fun _ _ => .refl _) hdecl.1 hother
  exact hpair.inside hdecl.2.1 hin (hdecl.2.2 other hother hin)

theorem Laminar.span_unique (hlaminar : facts.Laminar) {other : ClassDecl}
    (hdecl : facts.Shortest offset decl) (hother : facts.Shortest offset other) :
    other.span = decl.span := by
  have hinside := hlaminar.inside hdecl hother.1 hother.2.1
  have hinside' := hlaminar.inside hother hdecl.1 hdecl.2.1
  exact hinside'.antisymm hinside

theorem Laminar.owner?_of_perm (hlaminar : facts.Laminar)
    (hperm : moved.classes.Perm facts.classes) (hdecl : facts.Shortest offset decl) :
    ∃ place other, moved.owner? offset = some place ∧ moved.classes[place]? = some other ∧
      other.span = decl.span := by
  obtain ⟨place, howner⟩ := exists_owner? (hperm.mem_iff.mpr hdecl.1) hdecl.2.1
  obtain ⟨⟨other, hplace, hother⟩, -⟩ := isLeast_of_owner? howner
  exact ⟨place, other, howner, hplace, hlaminar.span_unique hdecl (hother.of_perm hperm.symm)⟩

end Facts

-- The owner of an offset, whatever the spans of the classes are: the first of the shortest classes
-- around it, if there is one. A class that ends before or where it starts owns nothing, although
-- none is shorter. When any two classes lie one inside the other or apart, the owner lies inside
-- every class around the offset, and its span does not depend on the order of the classes.
theorem Facts.owner?_is_first_shortest (facts : Facts) (offset : Nat) :
    (facts.owner? offset = none ↔
        ∀ decl ∈ facts.classes, decl.span.contains offset = false) ∧
      (∀ index, facts.owner? offset = some index ↔ IsLeast (facts.shortestAt offset) index) ∧
      ∀ index, facts.owner? offset = some index →
        ∃ decl, facts.classes[index]? = some decl ∧ decl.span.start < decl.span.stop ∧
          (∀ other ∈ facts.classes, other.span.stop ≤ other.span.start →
            other.span.length < decl.span.length) ∧
          (facts.Laminar →
            (∀ other ∈ facts.classes, other.span.contains offset = true →
              decl.span.Inside other.span) ∧
            ∀ moved : Facts, moved.classes.Perm facts.classes →
              ∃ place other, moved.owner? offset = some place ∧
                moved.classes[place]? = some other ∧ other.span = decl.span) := by
  refine ⟨owner?_eq_none_iff, fun index => owner?_eq_some_iff, fun index howner => ?_⟩
  obtain ⟨⟨decl, hindex, hdecl⟩, -⟩ := isLeast_of_owner? howner
  refine ⟨decl, hindex, Span.start_lt_stop_of_contains hdecl.2.1,
    fun other _ hempty => hdecl.length_lt hempty, fun hlaminar => ⟨?_, ?_⟩⟩
  · intro other hother hin
    exact hlaminar.inside hdecl hother hin
  · intro moved hperm
    exact hlaminar.owner?_of_perm hperm hdecl

-- A class without width, one that ends before it starts, and two classes with the same span inside
-- a third one.
def twinClasses : Facts where
  classes := [⟨"Point", ⟨30, 30⟩⟩, ⟨"Backwards", ⟨60, 20⟩⟩, ⟨"Outer", ⟨0, 100⟩⟩,
    ⟨"Inner", ⟨20, 60⟩⟩, ⟨"Twin", ⟨20, 60⟩⟩]
  methods := []
  heritage := []
  calls := []
  bindings := []

theorem twinClasses_owner_is_first_shortest :
    twinClasses.Laminar ∧ twinClasses.owner? 30 = some 3 ∧ twinClasses.owner? 100 = none ∧
      IsLeast (twinClasses.shortestAt 30) 3 ∧
      (∀ other ∈ twinClasses.classes, other.span.contains 30 = true →
        Span.Inside ⟨20, 60⟩ other.span) ∧
      ∃ place other,
        Facts.owner? { twinClasses with classes := twinClasses.classes.reverse } 30 = some place ∧
          twinClasses.classes.reverse[place]? = some other ∧ other.span = ⟨20, 60⟩ := by
  have hlaminar : twinClasses.Laminar := by decide
  have howner : twinClasses.owner? 30 = some 3 := by decide
  obtain ⟨-, hleast, howners⟩ := Facts.owner?_is_first_shortest twinClasses 30
  obtain ⟨hnone, -⟩ := Facts.owner?_is_first_shortest twinClasses 100
  obtain ⟨decl, hdecl, -, -, hnested⟩ := howners 3 howner
  obtain rfl : ⟨"Inner", ⟨20, 60⟩⟩ = decl := Option.some.inj hdecl
  obtain ⟨hinside, hmoved⟩ := hnested hlaminar
  exact ⟨hlaminar, howner, hnone.mpr (by decide), (hleast 3).mp howner, hinside,
    hmoved _ (List.reverse_perm _)⟩

-- Where classes overlap, their order decides.
example :
    Span.innermost? [⟨0, 10⟩, ⟨5, 15⟩] 7 = some 0 ∧
      Span.innermost? [⟨5, 15⟩, ⟨0, 10⟩] 7 = some 0 := by
  decide

end ClassAtlas
