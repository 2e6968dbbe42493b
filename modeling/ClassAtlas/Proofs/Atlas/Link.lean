import Mathlib.Algebra.BigOperators.Group.List.Basic
import Mathlib.Algebra.GroupWithZero.Nat
import ClassAtlas.Atlas.Link
import ClassAtlas.Proofs.Atlas.Table

namespace ClassAtlas

-- Records several callers of a method. Without callers nothing is recorded, so that
-- callers that were unset stay unset.
def MethodEntry.addCallers (usages : List Usage) (method : MethodEntry) : MethodEntry :=
  if usages = [] then method
  else { method with callers := some (method.callers.getD [] ++ usages) }

theorem MethodEntry.addCallers_name (usages : List Usage) (method : MethodEntry) :
    (method.addCallers usages).name = method.name := by
  unfold addCallers
  split <;> rfl

theorem MethodEntry.addCallers_cons (usage : Usage) (usages : List Usage) (method : MethodEntry) :
    (method.addCaller usage).addCallers usages = method.addCallers (usage :: usages) := by
  by_cases h : usages = [] <;> simp [addCallers, addCaller, h]

namespace Atlas

-- Every call of every class, in the order of the files, of the classes in them, and of the
-- calls that a class makes.
def usages (atlas : Atlas) : List Usage :=
  atlas.classes.flatMap (·.usages)

-- A usage can be linked when it says who calls what and the atlas declares its method.
def Linkable (atlas : Atlas) (usage : Usage) : Prop :=
  usage.caller ≠ "" ∧ usage.method ≠ "" ∧
    ∃ place, atlas.Declares place (methodName usage.receiver usage.method)

-- A linkable usage reaches the last place that declares its method.
def Reaches (atlas : Atlas) (usage : Usage) (place : MethodPlace) : Prop :=
  usage.caller ≠ "" ∧ usage.method ≠ "" ∧
    atlas.DeclaresLast place (methodName usage.receiver usage.method)

theorem target?_eq_some_iff (atlas : Atlas) (usage : Usage) (place : MethodPlace) :
    target? atlas.methodTable usage = some place ↔ atlas.Reaches usage place := by
  unfold target? Reaches Table.method?
  by_cases h : usage.caller = "" ∨ usage.method = ""
  · rw [if_pos h]
    constructor
    · rintro ⟨⟩
    · rintro ⟨hcaller, hmethod, -⟩
      exact absurd h (not_or.mpr ⟨hcaller, hmethod⟩)
  · rw [if_neg h, methodTable_eq_some_iff]
    obtain ⟨hcaller, hmethod⟩ := not_or.mp h
    simp [hcaller, hmethod]

theorem target?_isSome_iff (atlas : Atlas) (usage : Usage) :
    (target? atlas.methodTable usage).isSome ↔ atlas.Linkable usage := by
  have hlast (key : String) :
      (∃ place, atlas.DeclaresLast place key) ↔ ∃ place, atlas.Declares place key := by
    simp only [← methodTable_eq_some_iff, ← Option.isSome_iff_exists, methodTable_isSome_iff]
  simp only [Option.isSome_iff_exists, target?_eq_some_iff, Reaches, exists_and_left, hlast,
    Linkable]

instance (atlas : Atlas) (usage : Usage) (place : MethodPlace) :
    Decidable (atlas.Reaches usage place) :=
  decidable_of_iff _ (atlas.target?_eq_some_iff usage place)

instance (atlas : Atlas) : DecidablePred atlas.Linkable := fun usage =>
  decidable_of_iff _ (atlas.target?_isSome_iff usage)

-- The usages that reach a place, in the order of the usages.
def callersAt (atlas : Atlas) (place : MethodPlace) : List Usage :=
  atlas.usages.filter (atlas.Reaches · place)

theorem mem_callersAt {atlas : Atlas} {place : MethodPlace} {usage : Usage} :
    usage ∈ atlas.callersAt place ↔ usage ∈ atlas.usages ∧ atlas.Reaches usage place := by
  simp [callersAt]

-- The links to one place carry the usages that reach it.
theorem links_filter_place (atlas : Atlas) (place : MethodPlace) :
    (atlas.links.filter (fun link => link.1 = place)).map (·.2) = atlas.callersAt place := by
  unfold links callersAt
  change ((atlas.usages.filterMap _).filter _).map _ = _
  induction atlas.usages with
  | nil => rfl
  | cons usage rest ih =>
      have hreach := atlas.target?_eq_some_iff usage place
      cases htarget : target? atlas.methodTable usage with
      | none =>
          have hno : ¬ atlas.Reaches usage place := by
            rw [← hreach, htarget]
            simp
          simp only [List.filterMap_cons, htarget, Option.map_none, ih, List.filter_cons, hno,
            decide_false, Bool.false_eq_true, if_false]
      | some found =>
          rw [htarget, Option.some_inj] at hreach
          by_cases h : found = place
          · simp only [List.filterMap_cons, htarget, Option.map_some, List.filter_cons, h,
              hreach.mp h, decide_true, if_true, List.map_cons, ih]
          · have hno : ¬ atlas.Reaches usage place := fun hr => h (hreach.mpr hr)
            simp only [List.filterMap_cons, htarget, Option.map_some, List.filter_cons, h, hno,
              decide_false, Bool.false_eq_true, if_false, ih]

theorem links_length (atlas : Atlas) :
    atlas.links.length = (atlas.usages.filter atlas.Linkable).length := by
  unfold links
  change (atlas.usages.filterMap _).length = _
  induction atlas.usages with
  | nil => rfl
  | cons usage rest ih =>
      have hlink := atlas.target?_isSome_iff usage
      cases htarget : target? atlas.methodTable usage with
      | none =>
          have hno : ¬ atlas.Linkable usage := by simp [← hlink, htarget]
          simpa [htarget, hno] using ih
      | some found =>
          have hyes : atlas.Linkable usage := by simp [← hlink, htarget]
          simpa [htarget, hyes] using ih

-- One link after the other comes to the same as all links to a place at once.
theorem foldl_addCaller_eq_mapMethods (links : List (MethodPlace × Usage)) (atlas : Atlas) :
    links.foldl (fun atlas link => atlas.modifyMethod link.1 (.addCaller link.2)) atlas =
      atlas.mapMethods fun place =>
        .addCallers ((links.filter (fun link => link.1 = place)).map (·.2)) := by
  induction links generalizing atlas with
  | nil => exact atlas.mapMethods_id.symm
  | cons link rest ih =>
      rw [List.foldl_cons, ih, modifyMethod_eq_mapMethods, mapMethods_mapMethods]
      congr 1
      funext place method
      by_cases h : place = link.1
      · simp only [h, if_true, List.filter_cons, decide_true, List.map_cons,
          MethodEntry.addCallers_cons]
      · simp only [h, Ne.symm h, if_false, List.filter_cons, decide_false, Bool.false_eq_true]

theorem linkCalls_fst (atlas : Atlas) :
    atlas.linkCalls.1 = atlas.mapMethods fun place => .addCallers (atlas.callersAt place) := by
  simp only [linkCalls, foldl_addCaller_eq_mapMethods, links_filter_place]

-- Every usage that can be linked is a caller at exactly one place of the atlas.
theorem callersAt_perm (atlas : Atlas) :
    (atlas.placedMethods.flatMap fun entry => atlas.callersAt entry.1).Perm
      (atlas.usages.filter atlas.Linkable) := by
  have hperm := Lists.flatMap_filter_perm atlas.placedMethods_places_nodup
    (target? atlas.methodTable) atlas.usages
  have hlinkable (usage : Usage) :
      (∃ place ∈ atlas.placedMethods.map (·.1), target? atlas.methodTable usage = some place) ↔
        atlas.Linkable usage := by
    rw [← target?_isSome_iff, Option.isSome_iff_exists]
    constructor
    · rintro ⟨place, -, htarget⟩
      exact ⟨place, htarget⟩
    · rintro ⟨place, htarget⟩
      obtain ⟨-, -, ⟨entry, method, hentry, hmethod, -⟩, -⟩ :=
        (atlas.target?_eq_some_iff usage place).mp htarget
      have hplaced := mem_placedMethods.mpr ⟨hentry, hmethod⟩
      exact ⟨place, List.mem_map_of_mem (f := (·.1)) hplaced, htarget⟩
  simp only [target?_eq_some_iff] at hperm
  rw [List.flatMap_map] at hperm
  refine hperm.trans (.of_eq (List.filter_congr fun usage _ => ?_))
  simp only [← hlinkable, target?_eq_some_iff]

theorem callersAt_length_sum (atlas : Atlas) :
    (atlas.placedMethods.map fun entry => (atlas.callersAt entry.1).length).sum =
      atlas.links.length := by
  rw [links_length, ← atlas.callersAt_perm.length_eq, List.length_flatMap]

-- Linking adds to each method the usages that reach it, in order and with repetitions, and
-- changes nothing else. The count is the number of usages that can be linked, and each of
-- them is added at one place.
theorem linkCalls_spec (atlas : Atlas) :
    atlas.linkCalls.1 = atlas.mapMethods (fun place => .addCallers (atlas.callersAt place)) ∧
      atlas.linkCalls.2 = (atlas.usages.filter atlas.Linkable).length ∧
      atlas.linkCalls.2 =
        (atlas.placedMethods.map fun entry => (atlas.callersAt entry.1).length).sum :=
  ⟨atlas.linkCalls_fst, atlas.links_length, atlas.callersAt_length_sum.symm⟩

-- A class that calls a method of its parent twice, and once more without saying who calls. The
-- parent declares the method twice, and one caller of it is known.
def heirCalls : Atlas :=
  ⟨[⟨"a.ts", [⟨"A", ["B", "Outside"], none, [⟨"k", none⟩],
      [⟨"A", "m", "B"⟩, ⟨"", "m", "B"⟩, ⟨"A", "m", "B"⟩, ⟨"A", "m", "Outside"⟩]⟩]⟩,
    ⟨"b.ts", [⟨"B", [], none, [⟨"m", none⟩, ⟨"m", some [⟨"C", "m", "B"⟩]⟩], []⟩]⟩]⟩

theorem callersAt_heirCalls (place : MethodPlace) :
    heirCalls.callersAt place =
      if place = ⟨1, 0, 1⟩ then [⟨"A", "m", "B"⟩, ⟨"A", "m", "B"⟩] else [] := by
  have hknown : heirCalls.methodTable.method? "B" "m" = some ⟨1, 0, 1⟩ := by
    rw [method?_methodTable]
    decide
  have hunknown : heirCalls.methodTable.method? "Outside" "m" = none := by
    rw [method?_methodTable]
    decide
  have husages : heirCalls.usages =
      [⟨"A", "m", "B"⟩, ⟨"", "m", "B"⟩, ⟨"A", "m", "B"⟩, ⟨"A", "m", "Outside"⟩] := rfl
  simp only [callersAt, husages, ← target?_eq_some_iff]
  by_cases h : place = ⟨1, 0, 1⟩
  · simp [target?, hknown, hunknown, h]
  · simp [target?, hknown, hunknown, h, Ne.symm h]

theorem heirCalls_linkCalls :
    heirCalls.linkCalls.2 = 2 ∧
      heirCalls.linkCalls.1 =
        ⟨[⟨"a.ts", [⟨"A", ["B", "Outside"], none, [⟨"k", none⟩],
            [⟨"A", "m", "B"⟩, ⟨"", "m", "B"⟩, ⟨"A", "m", "B"⟩, ⟨"A", "m", "Outside"⟩]⟩]⟩,
          ⟨"b.ts", [⟨"B", [], none, [⟨"m", none⟩,
            ⟨"m", some [⟨"C", "m", "B"⟩, ⟨"A", "m", "B"⟩, ⟨"A", "m", "B"⟩]⟩], []⟩]⟩]⟩ := by
  obtain ⟨hlinked, -, hcount⟩ := linkCalls_spec heirCalls
  simp only [callersAt_heirCalls] at hlinked hcount
  exact ⟨hcount, hlinked⟩

end Atlas

end ClassAtlas
