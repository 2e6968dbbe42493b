import Mathlib.Data.Multiset.Basic
import ClassAtlas.Proofs.Survey.Files

namespace ClassAtlas

theorem MethodEntry.callers_addCallers {method : MethodEntry} (hunset : method.callers = none)
    (usages : List Usage) : (method.addCallers usages).callers.getD [] = usages := by
  unfold addCallers
  split
  · next hempty => rw [hunset, Option.getD_none, hempty]
  · rw [hunset, Option.getD_some, Option.getD_none, List.nil_append]

namespace Atlas

-- Every caller that is recorded anywhere in an atlas.
def callers (atlas : Atlas) : List Usage :=
  atlas.classes.flatMap fun entry => entry.methods.flatMap fun method => method.callers.getD []

-- Every parent that some class is linked with.
def linkedParents (atlas : Atlas) : List String :=
  atlas.classes.flatMap fun entry => entry.linked.getD []

-- An atlas without its callers.
def uncalled (atlas : Atlas) : Atlas :=
  atlas.mapMethods fun _ method => { method with callers := none }

variable {atlas : Atlas}

theorem uncalled_linkedRounds (parents : Bool) (rounds other : Nat) :
    (atlas.linkedRounds parents rounds).uncalled = (atlas.linkedRounds parents other).uncalled := by
  simp only [uncalled, linkedRounds, mapMethods_eq_mapClasses, mapClasses_mapClasses,
    List.mapIdx_mapIdx, Function.comp_def, MethodEntry.addCallers_name]

theorem unlinked_linkedRounds (parents other : Bool) (rounds : Nat) :
    (atlas.linkedRounds parents rounds).unlinked = (atlas.linkedRounds other rounds).unlinked := by
  simp only [unlinked, linkedRounds, mapClasses_mapClasses]

theorem usages_linkedRounds (parents : Bool) (rounds : Nat) :
    (atlas.linkedRounds parents rounds).usages = atlas.usages := by
  rw [usages, ← classes_flatMap_bare _ (·.usages) fun _ => rfl, linkedRounds_bare,
    classes_flatMap_bare _ (·.usages) fun _ => rfl, usages]

section Unlinked

-- Nothing was linked in the atlas before.
variable (hbare : ∀ entry ∈ atlas.classes, entry.bare = entry)

include hbare

-- A method gets just the callers that reach it.
theorem callers_linkedRounds_one (parents : Bool) :
    (atlas.linkedRounds parents 1).callers =
      atlas.placedMethods.flatMap fun entry => atlas.callersAt entry.1 := by
  rw [callers, classes_eq_placedClasses, linkedRounds, placedClasses_mapClasses, placedMethods,
    List.map_map, List.flatMap_map, List.flatMap_assoc]
  refine List.flatMap_congr ?_
  rintro ⟨place, entry⟩ hentry
  have hclass : entry ∈ atlas.classes := by
    rw [classes_eq_placedClasses]
    exact List.mem_map_of_mem (f := (·.2)) hentry
  simp only [Function.comp_apply, List.mapIdx_eq_zipIdx_map, List.flatMap_map,
    List.replicate_one, List.flatten_singleton]
  refine List.flatMap_congr ?_
  rintro ⟨method, k⟩ hmethod
  have hunset := (ClassEntry.unset_of_bare (hbare entry hclass)).2 method
    (List.fst_mem_of_mem_zipIdx hmethod)
  exact MethodEntry.callers_addCallers hunset _

theorem callers_perm_linkable (parents : Bool) :
    (atlas.linkedRounds parents 1).callers.Perm (atlas.usages.filter atlas.Linkable) := by
  rw [callers_linkedRounds_one hbare parents]
  exact atlas.callersAt_perm

theorem unset_linkedRounds_zero {parents : Bool} {entry : ClassEntry}
    (hentry : entry ∈ (atlas.linkedRounds parents 0).classes) {method : MethodEntry}
    (hmethod : method ∈ entry.methods) : method.callers = none := by
  obtain ⟨place, old, hold, rfl⟩ := exists_of_mem_mapClasses hentry
  have hkeep : MethodEntry.addCallers [] = fun method => method := rfl
  simp only [List.replicate_zero, List.flatten_nil, hkeep, Lists.mapIdx_keep] at hmethod
  exact (ClassEntry.unset_of_bare (hbare old hold)).2 method hmethod

theorem linked_of_linkedRounds {parents : Bool} {rounds : Nat} {entry : ClassEntry}
    (hentry : entry ∈ (atlas.linkedRounds parents rounds).classes) :
    entry.linked = if parents then some entry.parents else none := by
  obtain ⟨place, old, hold, rfl⟩ := exists_of_mem_mapClasses hentry
  cases parents with
  | false => exact (ClassEntry.unset_of_bare (hbare old hold)).1
  | true => rfl

end Unlinked

end Atlas

namespace Survey

variable {settings : Settings} {files : List SourceFile}

theorem callers_run_perm (hcalls : settings.linkCalls = true) :
    (run settings files).atlas.callers.Perm
      ((collected files).usages.filter (collected files).Linkable) := by
  rw [run_eq, hcalls]
  exact Atlas.callers_perm_linkable (fun _ => collected_bare) settings.linkParents

theorem linkedCalls_run_eq (hcalls : settings.linkCalls = true) :
    (run settings files).linkedCalls =
      ((collected files).usages.filter (collected files).Linkable).length := by
  rw [run_eq, hcalls]
  exact (collected files).links_length

theorem linkedCalls_run (hcalls : settings.linkCalls = true) :
    (run settings files).linkedCalls = (run settings files).atlas.callers.length ∧
      ((run settings files).atlas.callers : Multiset Usage) ≤
        (run settings files).atlas.usages := by
  have hperm : (run settings files).atlas.callers.Perm _ := callers_run_perm hcalls
  constructor
  · rw [linkedCalls_run_eq hcalls, hperm.length_eq]
  · have husages : (run settings files).atlas.usages = (collected files).usages := by
      rw [run_eq, Atlas.usages_linkedRounds]
    rw [husages]
    exact Multiset.coe_le.mpr (hperm.subperm.trans List.filter_sublist.subperm)

theorem linked_run {entry : ClassEntry} (hentry : entry ∈ (run settings files).atlas.classes) :
    entry.linked = if settings.linkParents then some entry.parents else none := by
  rw [run_eq] at hentry
  exact Atlas.linked_of_linkedRounds (fun _ => collected_bare) hentry

theorem knownParents_run (hparents : settings.linkParents = true) :
    (run settings files).knownParents =
      (run settings files).atlas.linkedParents.countP
        (· ∈ (run settings files).atlas.classes.map (·.name)) := by
  have hlinked : (run settings files).atlas.linkedParents =
      (run settings files).atlas.classes.flatMap (·.parents) := by
    refine List.flatMap_congr fun entry hentry => ?_
    rw [linked_run hentry, hparents, if_pos rfl, Option.getD_some]
  rw [hlinked, ← Atlas.linkParents_snd_eq_countP]
  simp only [run_eq, hparents, if_true]
  rw [← Atlas.linkParents_snd_bare, ← Atlas.linkedRounds_bare, Atlas.linkParents_snd_bare]

-- The numbers in a report are those of the links in its atlas, and each of the settings for
-- linking decides about one sort of links and about nothing else. Working in parallel does
-- not show at all.
theorem run_counts_links (settings : Settings) (files : List SourceFile) :
    let report := run settings files
    (settings.linkCalls = true →
        report.linkedCalls = report.atlas.callers.length ∧
          (report.atlas.callers : Multiset Usage) ≤ (report.atlas.usages : Multiset Usage)) ∧
      (settings.linkCalls = false →
        report.linkedCalls = 0 ∧
          ∀ entry ∈ report.atlas.classes, ∀ method ∈ entry.methods, method.callers = none) ∧
      (settings.linkParents = true →
        (∀ entry ∈ report.atlas.classes, entry.linked = some entry.parents) ∧
          report.knownParents =
            report.atlas.linkedParents.countP (· ∈ report.atlas.classes.map (·.name))) ∧
      (settings.linkParents = false →
        report.knownParents = 0 ∧ ∀ entry ∈ report.atlas.classes, entry.linked = none) ∧
      (∀ flag, let other := run { settings with linkCalls := flag } files
        other.atlas.uncalled = report.atlas.uncalled ∧ other.failures = report.failures ∧
          other.knownParents = report.knownParents) ∧
      (∀ flag, let other := run { settings with linkParents := flag } files
        other.atlas.unlinked = report.atlas.unlinked ∧ other.failures = report.failures ∧
          other.linkedCalls = report.linkedCalls) ∧
      ∀ flag, run { settings with parallel := flag } files = report := by
  intro report
  refine ⟨linkedCalls_run, ?_, ?_, ?_, ?_, ?_, ?_⟩
  · intro hcalls
    constructor
    · change (run settings files).linkedCalls = 0
      simp [run_eq, hcalls]
    · intro entry hentry method hmethod
      change entry ∈ (run settings files).atlas.classes at hentry
      simp only [run_eq, hcalls, Bool.toNat_false] at hentry
      exact Atlas.unset_linkedRounds_zero (fun _ => collected_bare) hentry hmethod
  · intro hparents
    refine ⟨fun entry hentry => ?_, knownParents_run hparents⟩
    rw [linked_run hentry, hparents, if_pos rfl]
  · intro hparents
    constructor
    · change (run settings files).knownParents = 0
      simp [run_eq, hparents]
    · intro entry hentry
      rw [linked_run hentry, hparents]
      rfl
  · intro flag
    simp only [report, run_eq, and_true]
    exact Atlas.uncalled_linkedRounds ..
  · intro flag
    simp only [report, run_eq, and_true]
    exact Atlas.unlinked_linkedRounds ..
  · intro flag
    simp only [report, run_eq]

theorem selfCaller_counts_links :
    collected [selfCaller] = ⟨[⟨"a.js", [⟨"A", [], none, [⟨"m", none⟩], [⟨"A", "m", "A"⟩]⟩]⟩]⟩ ∧
      (run ⟨true, true, true⟩ [selfCaller]).linkedCalls = 1 ∧
      (run ⟨true, true, true⟩ [selfCaller]).linkedCalls =
        (run ⟨true, true, true⟩ [selfCaller]).atlas.callers.length ∧
      (∀ entry ∈ (run ⟨true, true, true⟩ [selfCaller]).atlas.classes,
        entry.linked = some entry.parents) ∧
      (run ⟨true, false, false⟩ [selfCaller]).linkedCalls = 0 ∧
      ∀ entry ∈ (run ⟨true, false, false⟩ [selfCaller]).atlas.classes, entry.linked = none := by
  obtain ⟨hcalls, -, hparents, -⟩ := run_counts_links ⟨true, true, true⟩ [selfCaller]
  obtain ⟨-, hnoCalls, -, hnoParents, -⟩ := run_counts_links ⟨true, false, false⟩ [selfCaller]
  have hcollected : collected [selfCaller] =
      ⟨[⟨"a.js", [⟨"A", [], none, [⟨"m", none⟩], [⟨"A", "m", "A"⟩]⟩]⟩]⟩ := by decide +kernel
  have hlinkable : (collected [selfCaller]).Linkable ⟨"A", "m", "A"⟩ := by
    refine ⟨by decide, by decide, ((collected [selfCaller]).exists_declares_iff _).mpr ?_⟩
    simp [hcollected, Atlas.classes]
  have hcount : (run ⟨true, true, true⟩ [selfCaller]).linkedCalls = 1 := by
    have husages : (collected [selfCaller]).usages = [⟨"A", "m", "A"⟩] := by
      rw [hcollected]
      rfl
    rw [linkedCalls_run_eq rfl, husages, List.filter_cons_of_pos (by simpa using hlinkable)]
    rfl
  exact ⟨hcollected, hcount, (hcalls rfl).1, (hparents rfl).1, (hnoCalls rfl).1, (hnoParents rfl).2⟩

end Survey

end ClassAtlas
