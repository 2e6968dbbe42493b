import Mathlib.Data.List.Forall2
import ClassAtlas.Proofs.Atlas.Rounds

namespace ClassAtlas

-- A method at a later time. Callers that are set stay set, and others only come behind them.
structure MethodEntry.Grows (early late : MethodEntry) : Prop where
  name : late.name = early.name
  callers : ∀ usages, early.callers = some usages →
    ∃ all, late.callers = some all ∧ usages <+: all

-- A class at a later time. Once it is linked with the parents that it declares, it stays so.
structure ClassEntry.Grows (early late : ClassEntry) : Prop where
  name : late.name = early.name
  parents : late.parents = early.parents
  usages : late.usages = early.usages
  methods : List.Forall₂ MethodEntry.Grows early.methods late.methods
  linked : early.linked = some early.parents → late.linked = early.linked

structure FileEntry.Grows (early late : FileEntry) : Prop where
  path : late.path = early.path
  classes : List.Forall₂ ClassEntry.Grows early.classes late.classes

-- The files of the earlier atlas are the first ones of the later atlas, one by one.
def Atlas.Grows (early late : Atlas) : Prop :=
  ∃ kept added, late.files = kept ++ added ∧ List.Forall₂ FileEntry.Grows early.files kept

theorem MethodEntry.Grows.refl (method : MethodEntry) : method.Grows method where
  name := rfl
  callers usages husages := ⟨usages, husages, List.prefix_refl usages⟩

theorem MethodEntry.Grows.trans {a b c : MethodEntry} (hab : a.Grows b) (hbc : b.Grows c) :
    a.Grows c where
  name := hbc.name.trans hab.name
  callers usages husages := by
    obtain ⟨more, hmore, hfirst⟩ := hab.callers usages husages
    obtain ⟨all, hall, hsecond⟩ := hbc.callers more hmore
    exact ⟨all, hall, hfirst.trans hsecond⟩

theorem ClassEntry.Grows.refl (entry : ClassEntry) : entry.Grows entry where
  name := rfl
  parents := rfl
  usages := rfl
  methods := List.forall₂_same.mpr fun method _ => .refl method
  linked _ := rfl

theorem ClassEntry.Grows.trans {a b c : ClassEntry} (hab : a.Grows b) (hbc : b.Grows c) :
    a.Grows c where
  name := hbc.name.trans hab.name
  parents := hbc.parents.trans hab.parents
  usages := hbc.usages.trans hab.usages
  methods := Lists.forall₂_trans (fun _ _ _ => .trans) hab.methods hbc.methods
  linked hlinked := by
    have hmiddle := hab.linked hlinked
    have hdeclared : b.linked = some b.parents := by rw [hmiddle, hlinked, hab.parents]
    exact (hbc.linked hdeclared).trans hmiddle

theorem FileEntry.Grows.refl (file : FileEntry) : file.Grows file where
  path := rfl
  classes := List.forall₂_same.mpr fun entry _ => .refl entry

theorem FileEntry.Grows.trans {a b c : FileEntry} (hab : a.Grows b) (hbc : b.Grows c) :
    a.Grows c where
  path := hbc.path.trans hab.path
  classes := Lists.forall₂_trans (fun _ _ _ => .trans) hab.classes hbc.classes

theorem MethodEntry.grows_addCallers (usages : List Usage) (method : MethodEntry) :
    method.Grows (method.addCallers usages) := by
  unfold addCallers
  split
  · exact .refl method
  · refine ⟨rfl, fun old hold => ⟨old ++ usages, ?_, List.prefix_append old usages⟩⟩
    rw [hold, Option.getD_some]

namespace Atlas

theorem Grows.refl (atlas : Atlas) : atlas.Grows atlas :=
  ⟨atlas.files, [], (List.append_nil _).symm, List.forall₂_same.mpr fun file _ => .refl file⟩

theorem Grows.trans {a b c : Atlas} (hab : a.Grows b) (hbc : b.Grows c) : a.Grows c := by
  obtain ⟨kept, added, hb, hkept⟩ := hab
  obtain ⟨all, more, hc, hall⟩ := hbc
  -- the files that were kept at first are the first ones of those that are kept later
  rw [hb] at hall
  have hfirst := List.forall₂_take kept.length hall
  rw [List.take_left] at hfirst
  refine ⟨all.take kept.length, all.drop kept.length ++ more, ?_,
    Lists.forall₂_trans (fun _ _ _ => .trans) hkept hfirst⟩
  rw [hc, ← List.append_assoc, List.take_append_drop]

theorem Grows.class? {early late : Atlas} (hgrows : early.Grows late) {place : ClassPlace}
    {entry : ClassEntry} (hentry : early.class? place = some entry) :
    ∃ later, late.class? place = some later ∧ entry.Grows later := by
  obtain ⟨kept, added, hfiles, hkept⟩ := hgrows
  obtain ⟨file, hfile, hclass⟩ := Option.bind_eq_some_iff.mp hentry
  obtain ⟨newer, hnewer, hgrown⟩ := Lists.forall₂_getElem? hkept hfile
  obtain ⟨later, hlater, hgrown'⟩ := Lists.forall₂_getElem? hgrown.classes hclass
  refine ⟨later, ?_, hgrown'⟩
  have hlt := (List.getElem?_eq_some_iff.mp hnewer).1
  rw [Atlas.class?, hfiles, List.getElem?_append_left hlt, hnewer]
  exact hlater

theorem grows_mapClasses (atlas : Atlas) {change : ClassPlace → ClassEntry → ClassEntry}
    (hchange : ∀ place (entry : ClassEntry), entry.Grows (change place entry)) :
    atlas.Grows (atlas.mapClasses change) := by
  refine ⟨_, [], (List.append_nil _).symm, Lists.forall₂_mapIdx fun i file => ⟨rfl, ?_⟩⟩
  exact Lists.forall₂_mapIdx fun j entry => hchange ⟨i, j⟩ entry

theorem grows_append (atlas : Atlas) (files : List FileEntry) : atlas.Grows (atlas.append files) :=
  ⟨atlas.files, files, rfl, List.forall₂_same.mpr fun file _ => .refl file⟩

theorem grows_link (atlas : Atlas) (linking : Linking) : atlas.Grows (atlas.link linking).1 := by
  cases linking with
  | parents =>
      change atlas.Grows atlas.linkParents.1
      rw [linkParents_fst]
      refine atlas.grows_mapClasses fun place entry => ?_
      exact ⟨rfl, rfl, rfl, List.forall₂_same.mpr fun method _ => .refl method, fun h => h.symm⟩
  | calls =>
      change atlas.Grows atlas.linkCalls.1
      rw [linkCalls_fst, mapMethods_eq_mapClasses]
      refine atlas.grows_mapClasses fun place entry => ⟨rfl, rfl, rfl, ?_, fun _ => rfl⟩
      exact Lists.forall₂_mapIdx fun k method => method.grows_addCallers _

end Atlas

-- What can happen to an atlas in the course of a run: a linking, or files that are added.
inductive Change where
  | link (linking : Linking)
  | add (files : List FileEntry)

namespace Atlas

def change (atlas : Atlas) : Change → Atlas
  | .link linking => (atlas.link linking).1
  | .add files => atlas.append files

-- The atlas at a moment of a run, which is told by the number of changes up to then.
def moment (atlas : Atlas) (changes : List Change) (time : Nat) : Atlas :=
  (changes.take time).foldl change atlas

theorem grows_change (atlas : Atlas) (step : Change) : atlas.Grows (atlas.change step) := by
  cases step with
  | link linking => exact atlas.grows_link linking
  | add files => exact atlas.grows_append files

theorem grows_foldl_change (changes : List Change) (atlas : Atlas) :
    atlas.Grows (changes.foldl change atlas) := by
  induction changes generalizing atlas with
  | nil => exact .refl atlas
  | cons step rest ih => exact (atlas.grows_change step).trans (ih (atlas.change step))

theorem grows_moment (atlas : Atlas) (changes : List Change) {i j : Nat} (hij : i ≤ j) :
    (atlas.moment changes i).Grows (atlas.moment changes j) := by
  obtain ⟨between, hbetween⟩ := List.take_prefix_take_left (l := changes) hij
  have hlate : atlas.moment changes j = between.foldl change (atlas.moment changes i) := by
    rw [moment, moment, ← hbetween, List.foldl_append]
  rw [hlate]
  exact grows_foldl_change between _

theorem moment_succ (atlas : Atlas) {changes : List Change} {time : Nat} {step : Change}
    (hstep : changes[time]? = some step) :
    atlas.moment changes (time + 1) = (atlas.moment changes time).change step := by
  rw [moment, moment, List.take_add_one, hstep, List.foldl_append]
  rfl

-- A linking of parents settles the parents of every class that is there.
theorem linked_moment (atlas : Atlas) {changes : List Change} {time later : Nat}
    (hstep : changes[time]? = some (.link .parents)) (hlater : time < later) {place : ClassPlace}
    {entry : ClassEntry} (hentry : (atlas.moment changes time).class? place = some entry) :
    ∃ found, (atlas.moment changes later).class? place = some found ∧
      found.linked = some entry.parents := by
  have hlinked : (atlas.moment changes (time + 1)).class? place = some entry.linkDeclared := by
    rw [atlas.moment_succ hstep]
    change (atlas.moment changes time).linkParents.1.class? place = _
    rw [linkParents_fst, class?_mapClasses, hentry, Option.map_some]
  obtain ⟨found, hfound, hgrown⟩ := (atlas.grows_moment changes hlater).class? hlinked
  exact ⟨found, hfound, hgrown.linked rfl⟩

-- In the course of a run an atlas only grows: from one moment to a later one no file, class or
-- method is lost or moved, what they declare stays the same, and callers are only added behind
-- those that are there. The parents of a class that were linked before the first of the two
-- moments are the same at both.
theorem grows_along_run (atlas : Atlas) (changes : List Change) (i j : Nat) (hij : i ≤ j) :
    (atlas.moment changes i).Grows (atlas.moment changes j) ∧
      ∀ time < i, changes[time]? = some (.link .parents) →
        ∀ place entry, (atlas.moment changes time).class? place = some entry →
          ∃ early late, (atlas.moment changes i).class? place = some early ∧
            (atlas.moment changes j).class? place = some late ∧
            early.linked = some entry.parents ∧ late.linked = early.linked := by
  refine ⟨atlas.grows_moment changes hij, ?_⟩
  intro time htime hstep place entry hentry
  obtain ⟨early, hearly, hlinked⟩ := atlas.linked_moment hstep htime hentry
  obtain ⟨late, hlate, hlinked'⟩ := atlas.linked_moment hstep (by omega : time < j) hentry
  exact ⟨early, late, hearly, hlate, hlinked, hlinked'.trans hlinked.symm⟩

-- A class that was linked before, with a parent that it does not declare, and later a file of
-- the same path that declares the class again and calls its method.
def redeclared : Atlas :=
  ⟨[⟨"a.ts", [⟨"A", ["Base"], some ["Old"], [⟨"m", some [⟨"B", "m", "A"⟩]⟩], []⟩]⟩]⟩

def redeclaring : List Change :=
  [.link .parents, .add [⟨"a.ts", [⟨"A", [], none, [⟨"m", none⟩], [⟨"A", "m", "A"⟩]⟩]⟩],
    .link .calls]

theorem redeclared_grows_along_run :
    1 ≤ 3 ∧ redeclaring[0]? = some (.link .parents) ∧
      (redeclared.moment redeclaring 1).Grows (redeclared.moment redeclaring 3) ∧
      ∃ early late, (redeclared.moment redeclaring 1).class? ⟨0, 0⟩ = some early ∧
        (redeclared.moment redeclaring 3).class? ⟨0, 0⟩ = some late ∧
        early.linked = some ["Base"] ∧ late.linked = early.linked := by
  obtain ⟨hgrows, hlinked⟩ := redeclared.grows_along_run redeclaring 1 3 (by decide)
  exact ⟨by decide, rfl, hgrows, hlinked 0 (by decide) rfl ⟨0, 0⟩ _ rfl⟩

end Atlas

end ClassAtlas
