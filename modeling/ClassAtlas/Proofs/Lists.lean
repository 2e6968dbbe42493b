import Mathlib.Data.List.Forall2
import Mathlib.Data.List.Nodup
import Mathlib.Data.List.Pairwise

namespace ClassAtlas.Lists

variable {α : Type}

-- Positions in a list only grow.
theorem zipIdx_pairwise (items : List α) : items.zipIdx.Pairwise (fun a b => a.2 < b.2) := by
  rw [← List.pairwise_map, List.zipIdx_map_snd]
  exact List.pairwise_lt_range'

theorem zipIdx_flatMap_fst {β : Type} (items : List α) (f : α → List β) :
    items.zipIdx.flatMap (fun entry => f entry.1) = items.flatMap f := by
  conv_rhs => rw [← List.zipIdx_map_fst 0 items, List.flatMap_map]

theorem mapIdx_keep (items : List α) : items.mapIdx (fun _ item => item) = items := by
  apply List.ext_getElem <;> simp

theorem mapIdx_const {β : Type} (items : List α) (change : α → β) :
    items.mapIdx (fun _ => change) = items.map change := by
  apply List.ext_getElem <;> simp

theorem map_mapIdx {β γ : Type} (items : List α) (change : Nat → α → β) (further : β → γ) :
    (items.mapIdx change).map further = items.mapIdx fun i item => further (change i item) := by
  apply List.ext_getElem <;> simp

theorem mapIdx_eq_range_map {β : Type} (items : List α) (value : Nat → β) :
    items.mapIdx (fun i _ => value i) = (List.range items.length).map value := by
  apply List.ext_getElem <;> simp

theorem zipIdx_mapIdx {β : Type} (items : List α) (change : Nat → α → β) :
    (items.mapIdx change).zipIdx = items.zipIdx.map fun (item, i) => (change i item, i) := by
  apply List.ext_getElem <;> simp

theorem modify_eq_mapIdx (items : List α) (index : Nat) (change : α → α) :
    items.modify index change =
      items.mapIdx fun i item => if i = index then change item else item := by
  apply List.ext_getElem
  · simp
  · intro i _ _
    simp [List.getElem_modify, eq_comm]

theorem pairwise_of_length_le_one {related : α → α → Prop} {items : List α}
    (hlength : items.length ≤ 1) : items.Pairwise related := by
  refine List.pairwise_iff_getElem.mpr ?_
  intro i j hi hj hij
  omega

theorem flatMap_length_le_one {β : Type} {items : List α} {f : α → List β}
    (halone : items.Pairwise (fun a b => f a = [] ∨ f b = []))
    (hitems : ∀ item ∈ items, (f item).length ≤ 1) : (items.flatMap f).length ≤ 1 := by
  induction items with
  | nil => exact Nat.zero_le 1
  | cons item rest ih =>
      obtain ⟨hitem, hrest⟩ := List.pairwise_cons.mp halone
      rw [List.flatMap_cons]
      by_cases hempty : f item = []
      · rw [hempty]
        exact ih hrest fun other hother => hitems other (List.mem_cons_of_mem _ hother)
      · have hnone : rest.flatMap f = [] := by
          refine List.flatMap_eq_nil_iff.mpr fun other hother => ?_
          exact (hitem other hother).resolve_left hempty
        rw [hnone, List.append_nil]
        exact hitems item (List.mem_cons_self ..)

-- What has no answer can be left out of a search for the first answer.
theorem findSome?_filter_of_none {β : Type} {items : List α} {keep : α → Bool} {f : α → Option β}
    (hnone : ∀ item ∈ items, keep item = false → f item = none) :
    (items.filter keep).findSome? f = items.findSome? f := by
  induction items with
  | nil => rfl
  | cons item rest ih =>
      obtain ⟨hitem, hrest⟩ := List.forall_mem_cons.mp hnone
      cases hkeep : keep item with
      | true => simp [hkeep, List.findSome?_cons, ih hrest]
      | false => simp [hkeep, hitem hkeep, ih hrest]

-- Items that are gathered key by key are all the items that have one of the keys.
theorem flatMap_filter_perm {κ : Type} [DecidableEq κ] {keys : List κ} (hkeys : keys.Nodup)
    (key? : α → Option κ) (items : List α) :
    (keys.flatMap fun key => items.filter fun item => key? item = some key).Perm
      (items.filter fun item => ∃ key ∈ keys, key? item = some key) := by
  induction keys with
  | nil => simp
  | cons key keys ih =>
      obtain ⟨hnew, hkeys⟩ := List.nodup_cons.mp hkeys
      let here (item : α) : Bool := key? item = some key
      let all := items.filter fun item => ∃ other ∈ key :: keys, key? item = some other
      have hhere : all.filter here = items.filter here := by
        rw [List.filter_filter]
        refine List.filter_congr fun item _ => ?_
        by_cases h : key? item = some key <;> simp [here, h]
      have hothers : (all.filter fun item => !here item) =
          items.filter fun item => ∃ other ∈ keys, key? item = some other := by
        rw [List.filter_filter]
        refine List.filter_congr fun item _ => ?_
        by_cases h : key? item = some key <;> simp [here, h, hnew]
      have hsplit := List.filter_append_perm here all
      rw [hhere, hothers] at hsplit
      rw [List.flatMap_cons]
      exact ((ih hkeys).append_left _).trans hsplit

-- Lists that differ only in items of one sort: each of them may have such items anywhere that the
-- other does not have.
inductive DifferIn (sort : α → Prop) : List α → List α → Prop
  | nil : DifferIn sort [] []
  | both (item : α) {first second : List α} (hrest : DifferIn sort first second) :
      DifferIn sort (item :: first) (item :: second)
  | left {item : α} (hitem : sort item) {first second : List α}
      (hrest : DifferIn sort first second) : DifferIn sort (item :: first) second
  | right {item : α} (hitem : sort item) {first second : List α}
      (hrest : DifferIn sort first second) : DifferIn sort first (item :: second)

theorem DifferIn.filter_eq {sort : α → Prop} {first second : List α}
    (hdiffer : DifferIn sort first second) {keep : α → Bool}
    (hsort : ∀ item, sort item → keep item = false) : first.filter keep = second.filter keep := by
  induction hdiffer with
  | nil => rfl
  | both item _ ih => rw [List.filter_cons, List.filter_cons, ih]
  | left hitem _ ih => rw [List.filter_cons_of_neg (by simp [hsort _ hitem]), ih]
  | right hitem _ ih => rw [List.filter_cons_of_neg (by simp [hsort _ hitem]), ih]

-- The first item of a list that has a property.
def First (property : α → Prop) (items : List α) (item : α) : Prop :=
  ∃ before after, items = before ++ item :: after ∧ property item ∧
    ∀ other ∈ before, ¬ property other

theorem find?_eq_some_iff_first {test : α → Bool} {property : α → Prop}
    (htest : ∀ item, test item = true ↔ property item) {items : List α} {item : α} :
    items.find? test = some item ↔ First property items item := by
  rw [List.find?_eq_some_iff_append]
  constructor
  · rintro ⟨hitem, before, after, hsplit, hbefore⟩
    refine ⟨before, after, hsplit, (htest item).mp hitem, fun other hother => ?_⟩
    rw [← htest other]
    simpa using hbefore other hother
  · rintro ⟨before, after, hsplit, hitem, hbefore⟩
    refine ⟨(htest item).mpr hitem, before, after, hsplit, fun other hother => ?_⟩
    have hother := hbefore other hother
    rw [← htest other] at hother
    simpa using hother

theorem findSome?_eq_some_iff_first {β : Type} {answer : α → Option β} {gives : α → β → Prop}
    (hanswer : ∀ item value, answer item = some value ↔ gives item value) {items : List α}
    {value : β} :
    items.findSome? answer = some value ↔
      ∃ item, First (fun other => ∃ value, gives other value) items item ∧ gives item value := by
  have hnone (item : α) : answer item = none ↔ ¬ ∃ value, gives item value := by
    rw [Option.eq_none_iff_forall_ne_some, not_exists]
    exact forall_congr' fun value => not_congr (hanswer item value)
  rw [List.findSome?_eq_some_iff]
  constructor
  · rintro ⟨before, item, after, hsplit, hitem, hbefore⟩
    have hgives := (hanswer item value).mp hitem
    exact ⟨item, ⟨before, after, hsplit, ⟨value, hgives⟩,
      fun other hother => (hnone other).mp (hbefore other hother)⟩, hgives⟩
  · rintro ⟨item, ⟨before, after, hsplit, -, hbefore⟩, hgives⟩
    exact ⟨before, item, after, hsplit, (hanswer item value).mpr hgives,
      fun other hother => (hnone other).mpr (hbefore other hother)⟩

-- Items that are not looked for can be left out.
theorem find?_filter_of_imp {items : List α} {keep test : α → Bool}
    (himp : ∀ item ∈ items, test item = true → keep item = true) :
    (items.filter keep).find? test = items.find? test := by
  induction items with
  | nil => rfl
  | cons item rest ih =>
      obtain ⟨hitem, hrest⟩ := List.forall_mem_cons.mp himp
      by_cases hkeep : keep item = true
      · rw [List.filter_cons_of_pos hkeep, List.find?_cons, List.find?_cons, ih hrest]
      · have htest : ¬ test item = true := fun htest => hkeep (hitem htest)
        rw [List.filter_cons_of_neg hkeep, List.find?_cons_of_neg htest, ih hrest]

theorem forall₂_trans {related : α → α → Prop}
    (htrans : ∀ a b c, related a b → related b c → related a c) {first second third : List α}
    (hfirst : List.Forall₂ related first second) (hsecond : List.Forall₂ related second third) :
    List.Forall₂ related first third := by
  induction hfirst generalizing third with
  | nil => exact hsecond
  | cons hab _ ih =>
      obtain ⟨c, rest, hbc, hrest, rfl⟩ := List.forall₂_cons_left_iff.mp hsecond
      exact .cons (htrans _ _ _ hab hbc) (ih hrest)

theorem forall₂_mapIdx {β : Type} {related : α → β → Prop} {items : List α}
    {change : Nat → α → β} (hchange : ∀ i item, related item (change i item)) :
    List.Forall₂ related items (items.mapIdx change) := by
  refine List.forall₂_iff_get.mpr ⟨by simp, ?_⟩
  intro i hi _
  simpa using hchange i _

theorem forall₂_getElem? {β : Type} {related : α → β → Prop} {items : List α} {others : List β}
    (hrelated : List.Forall₂ related items others) {i : Nat} {item : α}
    (hitem : items[i]? = some item) : ∃ other, others[i]? = some other ∧ related item other := by
  obtain ⟨hi, rfl⟩ := List.getElem?_eq_some_iff.mp hitem
  have hi' : i < others.length := hrelated.length_eq ▸ hi
  exact ⟨others[i], List.getElem?_eq_getElem hi', hrelated.get hi hi'⟩

theorem forall₂_mapIdx_right {β γ : Type} {related : α → β → Prop} {related' : α → γ → Prop}
    {items : List α} {others : List β} {change : Nat → β → γ}
    (hrelated : List.Forall₂ related items others)
    (hchange : ∀ (i : Nat) (item : α) (other : β), items[i]? = some item → others[i]? = some other →
      related item other → related' item (change i other)) :
    List.Forall₂ related' items (others.mapIdx change) := by
  refine List.forall₂_iff_get.mpr ⟨by simpa using hrelated.length_eq, ?_⟩
  intro i hi _
  have hi' : i < others.length := hrelated.length_eq ▸ hi
  simpa using hchange i items[i] others[i] (List.getElem?_eq_getElem hi)
    (List.getElem?_eq_getElem hi') (hrelated.get hi hi')

-- What is kept of one of two parallel lists has its counterpart in the other.
theorem exists_forall₂_filter {β : Type} {related : α → β → Prop} {items : List α}
    {others : List β} (hrelated : List.Forall₂ related items others) (keep : β → Bool) :
    ∃ kept : List α, kept.Sublist items ∧
      List.Forall₂ (fun item other => related item other ∧ keep other = true) kept
        (others.filter keep) ∧
      ∀ (i : Nat) (item : α) (other : β), items[i]? = some item → others[i]? = some other →
        keep other = true → item ∈ kept := by
  induction hrelated with
  | nil => exact ⟨[], .slnil, .nil, by simp⟩
  | @cons first second items others hfirst _ ih =>
      obtain ⟨kept, hkept, hfilter, hall⟩ := ih
      by_cases hsecond : keep second = true
      · rw [List.filter_cons_of_pos hsecond]
        refine ⟨first :: kept, hkept.cons_cons first, .cons ⟨hfirst, hsecond⟩ hfilter, ?_⟩
        intro i item other hitem hother hkeep
        cases i with
        | zero =>
            obtain rfl : first = item := by simpa using hitem
            exact List.mem_cons_self ..
        | succ i => exact List.mem_cons_of_mem _ (hall i item other hitem hother hkeep)
      · rw [List.filter_cons_of_neg hsecond]
        refine ⟨kept, hkept.cons first, hfilter, ?_⟩
        intro i item other hitem hother hkeep
        cases i with
        | zero =>
            obtain rfl : second = other := by simpa using hother
            exact absurd hkeep hsecond
        | succ i => exact hall i item other hitem hother hkeep

-- Sorting keeps what it does not have to change: items that may stand in either order come
-- out as they went in.
theorem mergeSort_pairwise_stable {le : α → α → Bool}
    (htrans : ∀ a b c, le a b → le b c → le a c) (htotal : ∀ a b, le a b || le b a)
    {before : α → α → Prop} {items : List α} (hitems : items.Pairwise before) :
    (items.mergeSort le).Pairwise (fun a b => le a b = true ∧ (le b a = true → before a b)) := by
  have hsorted := List.pairwise_mergeSort (List.zipIdxLE_trans htrans)
    (List.zipIdxLE_total htotal) items.zipIdx
  have hapart : (items.zipIdx.mergeSort (List.zipIdxLE le)).Pairwise (fun a b => a.2 ≠ b.2) := by
    refine (List.mergeSort_perm _ _).symm.pairwise ?_ fun h => h.symm
    exact (zipIdx_pairwise items).imp fun h => Nat.ne_of_lt h
  rw [← List.mergeSort_zipIdx, List.pairwise_map]
  refine (hsorted.and hapart).imp_of_mem ?_
  rintro a b ha hb ⟨hle, hne⟩
  rw [List.mem_mergeSort, List.mem_zipIdx_iff_getElem?] at ha hb
  simp only [List.zipIdxLE, Bool.if_false_right, Bool.and_eq_true] at hle
  refine ⟨by simpa using hle.1, ?_⟩
  intro hba
  have hpositions : a.2 < b.2 := by
    have hle' : a.2 ≤ b.2 := by simpa [hba] using hle.2
    exact Nat.lt_of_le_of_ne hle' hne
  obtain ⟨hi, hia⟩ := List.getElem?_eq_some_iff.mp ha
  obtain ⟨hj, hjb⟩ := List.getElem?_eq_some_iff.mp hb
  have hbefore := List.pairwise_iff_getElem.mp hitems a.2 b.2 hi hj hpositions
  rwa [hia, hjb] at hbefore

-- Sorting does not touch the order of items that may stand in either order.
theorem filter_mergeSort {le : α → α → Bool} (htrans : ∀ a b c, le a b → le b c → le a c)
    (htotal : ∀ a b, le a b || le b a) {keep : α → Bool}
    (htied : ∀ a b, keep a = true → keep b = true → le a b = true) (items : List α) :
    (items.mergeSort le).filter keep = items.filter keep := by
  have hsorted : (items.filter keep).Pairwise (le · ·) := by
    refine List.pairwise_of_forall_mem_list fun a ha b hb => ?_
    exact htied a b (List.mem_filter.mp ha).2 (List.mem_filter.mp hb).2
  have hsub := List.sublist_mergeSort htrans htotal hsorted List.filter_sublist
  have hkept : (items.filter keep).Sublist ((items.mergeSort le).filter keep) := by
    simpa using hsub.filter keep
  have hlength := ((List.mergeSort_perm items le).filter keep).length_eq
  exact (hkept.eq_of_length hlength.symm).symm

theorem mem_iff_of_filter_eq {κ : Type} [DecidableEq κ] {key : α → κ} {first second : List α}
    (hfilter : ∀ value, (first.filter fun item => key item = value) =
      second.filter fun item => key item = value) (item : α) : item ∈ first ↔ item ∈ second := by
  have hitem : item ∈ (first.filter fun other => key other = key item) ↔
      item ∈ (second.filter fun other => key other = key item) := by rw [hfilter]
  simpa using hitem

-- A sorted list is known when the items of each key are known in their order.
theorem eq_of_pairwise_of_filter_eq {κ : Type} [DecidableEq κ] {key : α → κ}
    {related : α → α → Prop} (hkey : ∀ a b, related a b → related b a → key a = key b)
    {first second : List α} (hfirst : first.Pairwise related) (hsecond : second.Pairwise related)
    (hfilter : ∀ value, (first.filter fun item => key item = value) =
      second.filter fun item => key item = value) : first = second := by
  induction first generalizing second with
  | nil =>
      cases second with
      | nil => rfl
      | cons head' rest' => simpa using hfilter (key head')
  | cons head rest ih =>
      cases second with
      | nil => simpa using hfilter (key head)
      | cons head' rest' =>
          have hmem := mem_iff_of_filter_eq hfilter
          obtain ⟨hhead, hrest⟩ := List.pairwise_cons.mp hfirst
          obtain ⟨hhead', hrest'⟩ := List.pairwise_cons.mp hsecond
          -- the first items stand before each other, so that they have one key
          have hsame : key head = key head' := by
            by_cases heq : head = head'
            · rw [heq]
            · have hin := (hmem head).mp (List.mem_cons_self ..)
              have hin' := (hmem head').mpr (List.mem_cons_self ..)
              have hle := hhead head' ((List.mem_cons.mp hin').resolve_left (Ne.symm heq))
              have hle' := hhead' head ((List.mem_cons.mp hin).resolve_left heq)
              exact hkey head head' hle hle'
          have hheads := hfilter (key head)
          rw [List.filter_cons_of_pos (by simp), List.filter_cons_of_pos (by simp [hsame])]
            at hheads
          obtain ⟨rfl, -⟩ := List.cons.inj hheads
          have htails (value : κ) : (rest.filter fun item => key item = value) =
              rest'.filter fun item => key item = value := by
            have hvalue := hfilter value
            by_cases hkeep : key head = value <;> simpa [hkeep] using hvalue
          rw [ih hrest hrest' htails]

end ClassAtlas.Lists
