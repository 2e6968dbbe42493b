import Mathlib.Data.List.Forall2
import ClassAtlas.Extraction

namespace ClassAtlas

namespace RuleBook

-- The last of the texts for an aspect.
def LastText (texts : List (Aspect × String)) (aspect : Aspect) (text : String) : Prop :=
  ∃ before after, texts = before ++ (aspect, text) :: after ∧ ∀ later ∈ after, later.1 ≠ aspect

theorem find?_reverse_eq_some_iff (texts : List (Aspect × String)) (aspect : Aspect)
    (found : Aspect × String) :
    texts.reverse.find? (fun text => text.1 = aspect) = some found ↔
      found.1 = aspect ∧ LastText texts aspect found.2 := by
  rw [List.find?_eq_some_iff_append, decide_eq_true_iff]
  refine and_congr_right ?_
  rintro rfl
  constructor
  · rintro ⟨after, before, hsplit, hafter⟩
    refine ⟨before.reverse, after.reverse, ?_, ?_⟩
    · rw [← List.reverse_reverse texts, hsplit]
      simp
    · intro later hlater
      simpa using hafter later (List.mem_reverse.mp hlater)
  · rintro ⟨before, after, hsplit, hafter⟩
    refine ⟨after.reverse, before.reverse, by simp [hsplit], ?_⟩
    intro later hlater
    simpa using hafter later (List.mem_reverse.mp hlater)

variable (read : Language → String → Except Defect Query) (language : Language)
  (texts : List (Aspect × String)) (aspect : Aspect)

-- Only the last text for an aspect is read.
theorem entry_ofTexts_eq_some_iff (result : Except Defect Query) :
    (ofTexts read language texts).entry aspect = some result ↔
      ∃ text, LastText texts aspect text ∧ read language text = result := by
  simp only [ofTexts, Option.map_eq_some_iff, find?_reverse_eq_some_iff]
  constructor
  · rintro ⟨found, ⟨-, hlast⟩, hread⟩
    exact ⟨found.2, hlast, hread⟩
  · rintro ⟨text, hlast, hread⟩
    exact ⟨(aspect, text), ⟨rfl, hlast⟩, hread⟩

theorem entry_ofTexts_eq_none_iff :
    (ofTexts read language texts).entry aspect = none ↔ ∀ text ∈ texts, text.1 ≠ aspect := by
  simp [ofTexts]

-- The fault of an aspect without a text.
def Absent (fault : Fault) : Prop :=
  (∀ text ∈ texts, text.1 ≠ aspect) ∧
    fault = .malformedQuery language.name aspect "no pattern registered"

-- The fault of an aspect whose last text is no query.
def Malformed (fault : Fault) : Prop :=
  ∃ text defect, LastText texts aspect text ∧
    read language text = .error defect ∧
    fault = .malformedQuery language.name aspect defect.message

variable {read language texts aspect} {fault : Fault}

theorem absent_iff :
    Absent language texts aspect fault ↔
      (ofTexts read language texts).entry aspect = none ∧
        fault = (ofTexts read language texts).fault aspect "no pattern registered" := by
  rw [entry_ofTexts_eq_none_iff]
  rfl

theorem malformed_iff :
    Malformed read language texts aspect fault ↔
      ∃ defect, (ofTexts read language texts).entry aspect = some (.error defect) ∧
        fault = (ofTexts read language texts).fault aspect defect.message := by
  simp only [entry_ofTexts_eq_some_iff]
  constructor
  · rintro ⟨text, defect, hlast, hread, hfault⟩
    exact ⟨defect, ⟨text, hlast, hread⟩, hfault⟩
  · rintro ⟨defect, ⟨text, hlast, hread⟩, hfault⟩
    exact ⟨text, defect, hlast, hread, hfault⟩

-- The faults of all aspects that have one, in some order of the aspects.
def ListsInOrder (order : List Aspect) (problem : Aspect → Fault → Prop) (faults : List Fault) :
    Prop :=
  ∃ aspects, aspects.Sublist order ∧ List.Forall₂ problem aspects faults ∧
    ∀ aspect fault, problem aspect fault → aspect ∈ aspects

theorem listsInOrder_filterMap {order : List Aspect} (horder : ∀ aspect, aspect ∈ order)
    {problem : Aspect → Fault → Prop} {fault? : Aspect → Option Fault}
    (hfault : ∀ aspect fault, fault? aspect = some fault ↔ problem aspect fault) :
    ListsInOrder order problem (order.filterMap fault?) := by
  refine ⟨order.filter (fun aspect => (fault? aspect).isSome), List.filter_sublist, ?_, ?_⟩
  · clear horder
    induction order with
    | nil => exact .nil
    | cons aspect rest ih =>
        cases hfound : fault? aspect with
        | none => simpa [hfound] using ih
        | some fault =>
            rw [List.filter_cons_of_pos (by simp [hfound]), List.filterMap_cons_some hfound]
            exact .cons ((hfault aspect fault).mp hfound) ih
  · intro aspect fault hproblem
    have hfound := (hfault aspect fault).mpr hproblem
    exact List.mem_filter.mpr ⟨horder aspect, by simp [hfound]⟩

-- Extraction reports every aspect without a query, be it absent or malformed.
theorem faults_ofTexts (spoken : Language) (path : String) (document : Document) :
    ListsInOrder [.classes, .methods, .heritage, .calls, .declarations]
      (fun aspect fault =>
        Absent language texts aspect fault ∨ Malformed read language texts aspect fault)
      (Extraction.ofDocument spoken (ofTexts read language texts) path document).faults := by
  apply listsInOrder_filterMap
  · intro aspect
    cases aspect <;> decide
  · intro aspect fault
    rw [absent_iff, malformed_iff, Extraction.fault?, query]
    cases (ofTexts read language texts).entry aspect with
    | none => simp [eq_comm]
    | some result => cases result <;> simp [eq_comm]

-- The book itself reports the malformed ones alone, in another order.
theorem defects_ofTexts :
    ListsInOrder [.classes, .methods, .calls, .heritage, .declarations]
      (Malformed read language texts) (ofTexts read language texts).defects := by
  apply listsInOrder_filterMap
  · intro aspect
    cases aspect <;> decide
  · intro aspect fault
    rw [malformed_iff]
    cases (ofTexts read language texts).entry aspect with
    | none => simp
    | some result => cases result <;> simp [eq_comm]

end RuleBook

end ClassAtlas
