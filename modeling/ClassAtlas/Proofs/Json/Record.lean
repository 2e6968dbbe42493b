import Mathlib.Data.List.Nodup
import ClassAtlas.Json.Value

namespace ClassAtlas.Json

-- A field of a record, and how its value can be written otherwise.
structure Field where
  key : String
  optional : Bool
  edit : Json → Json → Prop

-- Lists are written anew by writing one of their elements anew.
inductive ListEdit (edit : Json → Json → Prop) : Json → Json → Prop
  | element (front back : List Json) {value other : Json} (hedit : edit value other) :
      ListEdit edit (.array (front ++ value :: back)) (.array (front ++ other :: back))

-- Ways to write a record otherwise: with more members that it does not know, or others; with its
-- members in another order; with null for a field that is unset; as the array of its fields; or
-- with one of its fields written otherwise.
inductive RecordEdit (fields : List Field) : Json → Json → Prop
  | unknown (front back : List (String × Json)) {key : String}
      (hkey : ∀ field ∈ fields, field.key ≠ key) (value : Json) :
      RecordEdit fields (.object (front ++ back)) (.object (front ++ (key, value) :: back))
  | other (front back : List (String × Json)) {key : String}
      (hkey : ∀ field ∈ fields, field.key ≠ key) (value other : Json) :
      RecordEdit fields (.object (front ++ (key, value) :: back))
        (.object (front ++ (key, other) :: back))
  | reorder {members others : List (String × Json)} (hperm : members.Perm others) :
      RecordEdit fields (.object members) (.object others)
  | null (front back : List (String × Json)) {field : Field} (hfield : field ∈ fields)
      (hoptional : field.optional = true)
      (hunset : ∀ entry ∈ front ++ back, entry.1 ≠ field.key) :
      RecordEdit fields (.object (front ++ back)) (.object (front ++ (field.key, .null) :: back))
  | array (members : List (String × Json)) :
      RecordEdit fields (.object members)
        (.array (fields.map fun field => (member? members field.key).getD .null))
  | member (front back : List (String × Json)) {field : Field} (hfield : field ∈ fields)
      {value other : Json} (hedit : field.edit value other) :
      RecordEdit fields (.object (front ++ (field.key, value) :: back))
        (.object (front ++ (field.key, other) :: back))
  | element (front back : List Json) {field : Field}
      (hfield : fields[front.length]? = some field) {value other : Json}
      (hedit : field.edit value other) :
      RecordEdit fields (.array (front ++ value :: back)) (.array (front ++ other :: back))

-- A value with one way to be written.
def NoEdit (_ _ : Json) : Prop := False

namespace Field

def plain (key : String) : Field := ⟨key, false, NoEdit⟩

def list (key : String) (edit : Json → Json → Prop) : Field := ⟨key, false, ListEdit edit⟩

def optionalList (key : String) (edit : Json → Json → Prop) : Field := ⟨key, true, ListEdit edit⟩

end Field

-- What an edit of a record does to the answer for one of its fields.
inductive FieldEdit (edit : Json → Json → Prop) : Option Json → Option Json → Prop
  | same (answer : Option Json) : FieldEdit edit answer answer
  | null : FieldEdit edit none (some .null)
  | value {value other : Json} (hedit : edit value other) : FieldEdit edit (some value) (some other)

inductive FieldsEdit : List Field → List (Option Json) → List (Option Json) → Prop
  | nil : FieldsEdit [] [] []
  | cons {field : Field} {fields : List Field} {answer other : Option Json}
      {answers others : List (Option Json)} (hfield : FieldEdit field.edit answer other)
      (hrest : FieldsEdit fields answers others) :
      FieldsEdit (field :: fields) (answer :: answers) (other :: others)

theorem FieldsEdit.of_forall {fields : List Field} {before after : Field → Option Json}
    (hfields : ∀ field ∈ fields, FieldEdit field.edit (before field) (after field)) :
    FieldsEdit fields (fields.map before) (fields.map after) := by
  induction fields with
  | nil => exact .nil
  | cons field fields ih =>
      obtain ⟨hfield, hrest⟩ := List.forall_mem_cons.mp hfields
      exact .cons hfield (ih hrest)

theorem FieldsEdit.refl {fields : List Field} {answers : List (Option Json)}
    (hlength : answers.length = fields.length) : FieldsEdit fields answers answers := by
  induction fields generalizing answers with
  | nil =>
      obtain rfl := List.length_eq_zero_iff.mp hlength
      exact .nil
  | cons field fields ih =>
      cases answers with
      | nil => cases hlength
      | cons answer answers => exact .cons (.same answer) (ih (Nat.succ.inj hlength))

theorem FieldsEdit.at_position {fields : List Field} {front back : List (Option Json)}
    {field : Field} (hfield : fields[front.length]? = some field) {value other : Json}
    (hedit : field.edit value other)
    (hlength : (front ++ some value :: back).length = fields.length) :
    FieldsEdit fields (front ++ some value :: back) (front ++ some other :: back) := by
  induction front generalizing fields with
  | nil =>
      cases fields with
      | nil => cases hfield
      | cons first fields =>
          obtain rfl : first = field := by simpa using hfield
          exact .cons (.value hedit) (.refl (Nat.succ.inj hlength))
  | cons answer front ih =>
      cases fields with
      | nil => cases hfield
      | cons first fields => exact .cons (.same answer) (ih hfield (Nat.succ.inj hlength))

-- The values of all members with a key.
def valuesAt (members : List (String × Json)) (key : String) : List Json :=
  (members.filter fun entry => entry.1 == key).map (·.2)

theorem member?_eq_head? (members : List (String × Json)) (key : String) :
    member? members key = (valuesAt members key).head? := by
  rw [member?, valuesAt, List.head?_map, List.head?_filter]

theorem keysOnce_iff {keys : List String} {members : List (String × Json)} :
    keysOnce keys members = true ↔ ∀ key ∈ keys, (valuesAt members key).length ≤ 1 := by
  simp [keysOnce, valuesAt]

theorem valuesAt_append (front back : List (String × Json)) (key : String) :
    valuesAt (front ++ back) key = valuesAt front key ++ valuesAt back key := by
  simp [valuesAt]

theorem valuesAt_cons_self (key : String) (value : Json) (rest : List (String × Json)) :
    valuesAt ((key, value) :: rest) key = value :: valuesAt rest key := by
  simp [valuesAt]

theorem valuesAt_cons_of_ne {key other : String} (hne : other ≠ key) (value : Json)
    (rest : List (String × Json)) :
    valuesAt ((key, value) :: rest) other = valuesAt rest other := by
  simp [valuesAt, hne.symm]

theorem valuesAt_of_unset {members : List (String × Json)} {key : String}
    (hunset : ∀ entry ∈ members, entry.1 ≠ key) : valuesAt members key = [] := by
  simpa [valuesAt] using hunset

theorem valuesAt_of_perm {members others : List (String × Json)} (hperm : members.Perm others)
    (key : String) : (valuesAt members key).Perm (valuesAt others key) :=
  (hperm.filter _).map _

-- Whether the values of a key are still at most one, and what happens to the answer.
def KeyEdit (field : Field) (members others : List (String × Json)) : Prop :=
  (valuesAt members field.key).length ≤ 1 →
    (valuesAt others field.key).length ≤ 1 ∧
      FieldEdit field.edit (valuesAt members field.key).head? (valuesAt others field.key).head?

theorem KeyEdit.of_eq {field : Field} {members others : List (String × Json)}
    (hsame : valuesAt others field.key = valuesAt members field.key) :
    KeyEdit field members others := by
  intro honce
  rw [hsame]
  exact ⟨honce, .same _⟩

-- A key that has one value at most keeps it when the members are reordered.
theorem KeyEdit.of_perm {field : Field} {members others : List (String × Json)}
    (hperm : members.Perm others) : KeyEdit field members others := by
  intro honce
  refine KeyEdit.of_eq ?_ honce
  have hvalues := valuesAt_of_perm hperm field.key
  cases hall : valuesAt members field.key with
  | nil =>
      rw [hall] at hvalues
      exact hvalues.nil_eq.symm
  | cons value rest =>
      rw [hall] at hvalues honce
      obtain rfl : rest = [] := List.length_eq_zero_iff.mp (by simpa using honce)
      exact List.singleton_perm.mp hvalues |>.symm

theorem fields?_object_edit {fields : List Field} {members others : List (String × Json)}
    (hkeys : ∀ field ∈ fields, KeyEdit field members others) {answers : List (Option Json)}
    (hanswers : (Json.object members).fields? (fields.map (·.key)) = some answers) :
    ∃ others', (Json.object others).fields? (fields.map (·.key)) = some others' ∧
      FieldsEdit fields answers others' := by
  obtain ⟨honce, rfl⟩ : keysOnce (fields.map (·.key)) members = true ∧
      (fields.map (·.key)).map (member? members) = answers := by
    simpa [fields?] using hanswers
  have honce := keysOnce_iff.mp honce
  have hedit (field : Field) (hfield : field ∈ fields) :=
    hkeys field hfield (honce field.key (List.mem_map_of_mem hfield))
  have hothers : keysOnce (fields.map (·.key)) others = true := by
    refine keysOnce_iff.mpr fun key hkey => ?_
    obtain ⟨field, hfield, rfl⟩ := List.mem_map.mp hkey
    exact (hedit field hfield).1
  refine ⟨_, if_pos hothers, ?_⟩
  rw [List.map_map, List.map_map]
  refine FieldsEdit.of_forall fun field hfield => ?_
  rw [Function.comp_apply, Function.comp_apply, member?_eq_head?, member?_eq_head?]
  exact (hedit field hfield).2

theorem fields?_array {keys : List String} {elements : List Json} {answers : List (Option Json)} :
    (Json.array elements).fields? keys = some answers ↔
      elements.length ≤ keys.length ∧
        elements.map some ++ List.replicate (keys.length - elements.length) none = answers := by
  simp [fields?]

-- An edited record still has an answer for each of its fields, and each answer is the old one,
-- edited at most in its own way.
theorem RecordEdit.fields? {fields : List Field} (hdistinct : (fields.map (·.key)).Nodup)
    {json other : Json} (hedit : RecordEdit fields json other) {answers : List (Option Json)}
    (hanswers : json.fields? (fields.map (·.key)) = some answers) :
    ∃ others, other.fields? (fields.map (·.key)) = some others ∧
      FieldsEdit fields answers others := by
  cases hedit with
  | unknown front back hkey value =>
      refine fields?_object_edit (fun field hfield => .of_eq ?_) hanswers
      rw [valuesAt_append, valuesAt_cons_of_ne (hkey field hfield), valuesAt_append]
  | other front back hkey value other =>
      refine fields?_object_edit (fun field hfield => .of_eq ?_) hanswers
      rw [valuesAt_append, valuesAt_cons_of_ne (hkey field hfield), valuesAt_append,
        valuesAt_cons_of_ne (hkey field hfield)]
  | reorder hperm => exact fields?_object_edit (fun field _ => .of_perm hperm) hanswers
  | @null front back unset hfield hoptional hunset =>
      refine fields?_object_edit (fun field _ => ?_) hanswers
      by_cases hsame : field.key = unset.key
      · have hnone : valuesAt (front ++ back) field.key = [] :=
          valuesAt_of_unset (hsame ▸ hunset)
        have hfront : valuesAt front field.key = [] ∧ valuesAt back field.key = [] := by
          simpa [valuesAt_append] using hnone
        intro _
        rw [hnone, valuesAt_append, ← hsame, valuesAt_cons_self, hfront.1, hfront.2]
        exact ⟨Nat.le_refl 1, .null⟩
      · refine .of_eq ?_
        rw [valuesAt_append, valuesAt_cons_of_ne hsame, valuesAt_append]
  | array members =>
      obtain ⟨-, rfl⟩ : keysOnce (fields.map (·.key)) members = true ∧
          (fields.map (·.key)).map (member? members) = answers := by
        simpa [Json.fields?] using hanswers
      refine ⟨_, fields?_array.mpr ⟨by simp, rfl⟩, ?_⟩
      simp only [List.map_map, List.length_map, Nat.sub_self, List.replicate_zero,
        List.append_nil]
      refine FieldsEdit.of_forall fun field _ => ?_
      simp only [Function.comp_apply]
      cases member? members field.key with
      | none => exact .null
      | some value => exact .same _
  | @member front back edited hfield value other hedit =>
      refine fields?_object_edit (fun field hfield' => ?_) hanswers
      by_cases hsame : field.key = edited.key
      · obtain rfl : field = edited := List.inj_on_of_nodup_map hdistinct hfield' hfield hsame
        intro honce
        rw [valuesAt_append, valuesAt_cons_self, List.length_append, List.length_cons] at honce
        have hfront : valuesAt front field.key = [] := List.length_eq_zero_iff.mp (by omega)
        have hback : valuesAt back field.key = [] := List.length_eq_zero_iff.mp (by omega)
        rw [valuesAt_append, valuesAt_cons_self, valuesAt_append, valuesAt_cons_self, hfront, hback]
        exact ⟨Nat.le_refl 1, .value hedit⟩
      · refine .of_eq ?_
        rw [valuesAt_append, valuesAt_cons_of_ne hsame, valuesAt_append, valuesAt_cons_of_ne hsame]
  | @element front back field hfield value other hedit =>
      obtain ⟨hlength, rfl⟩ := fields?_array.mp hanswers
      have hlength' : (front ++ other :: back).length ≤ (fields.map (·.key)).length := by
        simpa using hlength
      refine ⟨_, fields?_array.mpr ⟨hlength', rfl⟩, ?_⟩
      have hfield' : fields[(front.map some).length]? = some field := by simpa using hfield
      simp only [List.map_append, List.map_cons, List.append_assoc, List.cons_append]
      have hcount : (front ++ other :: back).length = (front ++ value :: back).length := by simp
      rw [hcount]
      refine FieldsEdit.at_position hfield' hedit ?_
      simp only [List.length_append, List.length_map, List.length_cons, List.length_replicate]
        at hlength ⊢
      omega

-- A reader that does not see an edit, once it has read the value before.
def Kept {α : Type} (read : Json → Option α) (edit : Json → Json → Prop) : Prop :=
  ∀ ⦃value other : Json⦄ ⦃result : α⦄,
    edit value other → read value = some result → read other = some result

variable {α : Type} {read : Json → Option α} {edit : Json → Json → Prop}

theorem kept_noEdit (read : Json → Option α) : Kept read NoEdit :=
  fun _ _ _ hedit _ => hedit.elim

theorem Kept.list? (hread : Kept read edit) : Kept (list? read) (ListEdit edit) := by
  rintro _ _ results ⟨front, back, hedit⟩ hresults
  rename_i value other
  simp only [Json.list?, List.mapM_append, List.mapM_cons] at hresults ⊢
  cases hvalue : read value with
  | none => simp [hvalue] at hresults
  | some result =>
      rw [hvalue] at hresults
      rw [hread hedit hvalue]
      exact hresults

theorem FieldEdit.required? (hread : Kept read edit) {answer other : Option Json} {result : α}
    (hedit : FieldEdit edit answer other) (hresult : required? read answer = some result) :
    Json.required? read other = some result := by
  cases hedit with
  | same => exact hresult
  | null => cases hresult
  | value hedit => exact hread hedit hresult

theorem FieldEdit.optional? (hread : Kept read edit) {answer other : Option Json}
    {result : Option (List α)} (hedit : FieldEdit (ListEdit edit) answer other)
    (hresult : optional? (list? read) answer = some result) :
    Json.optional? (Json.list? read) other = some result := by
  cases hedit with
  | same => exact hresult
  | null => exact hresult
  | value hedit =>
      cases hedit with
      | element front back hedit =>
          obtain ⟨results, hresults, rfl⟩ := Option.map_eq_some_iff.mp hresult
          have hother := hread.list? (.element front back hedit) hresults
          exact Option.map_eq_some_iff.mpr ⟨results, hother, rfl⟩

-- What is written for each element is read back for the list.
theorem list?_map {write : α → Json} (hread : ∀ item, read (write item) = some item)
    (items : List α) : list? read (.array (items.map write)) = some items := by
  simp only [Json.list?]
  induction items with
  | nil => rfl
  | cons item items ih => simp [List.mapM_cons, hread, ih]

end ClassAtlas.Json
