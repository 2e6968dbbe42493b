import ClassAtlas.Proofs.Scope
import ClassAtlas.Proofs.Text.Qualifier

namespace ClassAtlas.Scope

-- The words that stand for the class itself or for its superclass.
def keywords : List String := ["this", "self", "super", "base"]

-- The name that a receiver asks for: that of a member of the current object, or the receiver
-- itself when it is a word. Other receivers ask for none.
inductive Asks : String → String → Prop
  | member {text qualifier member : String} (hqualifier : qualifier ∈ Text.qualifiers)
      (htext : Text.trim text = qualifier ++ member) : Asks text (Text.trim member)
  | word {text : String} (hword : Text.isWord (Text.trim text).toList = true)
      (hplain : Text.trim text ∉ keywords) : Asks text (Text.trim text)

theorem explicitType_of_member {qualifier : String} (hqualifier : qualifier ∈ Text.qualifiers)
    (member : String) (scope : Scope) (offset : Nat) :
    scope.explicitType (qualifier ++ member) offset =
      (scope.typeOf? (Text.trim member) offset).getD (qualifier ++ member) := by
  have hmember : Text.selfMember? (qualifier ++ member) = some member :=
    Text.selfMember?_eq_some_iff.mpr ⟨qualifier, hqualifier, rfl⟩
  have hself : ¬ (qualifier ++ member = "this" ∨ qualifier ++ member = "self") := by
    simp only [← String.toList_inj, String.toList_append]
    rcases List.mem_pair.mp hqualifier with rfl | rfl <;> simp
  have hsuper : ¬ (qualifier ++ member = "super" ∨ qualifier ++ member = "base" ∨
      qualifier ++ member = "super()") := by
    simp only [← String.toList_inj, String.toList_append]
    rcases List.mem_pair.mp hqualifier with rfl | rfl <;> simp
  rw [explicitType, if_neg hself, if_neg hsuper, hmember]

theorem created?_of_isWord {word : String} (hword : Text.isWord word.toList = true) :
    created? word = none := by
  have hnew : Text.after? "new " word = none := by
    rw [Text.after?_eq_none_iff]
    intro rest hrest
    rw [hrest, String.toList_append] at hword
    simp [Text.isWord, Text.isWordPart] at hword
  rw [created?, hnew]
  rfl

theorem explicitType_of_isWord {word : String} (hword : Text.isWord word.toList = true)
    (hplain : word ∉ keywords) (scope : Scope) (offset : Nat) :
    scope.explicitType word offset = (scope.typeOf? word offset).getD word := by
  simp only [keywords, List.mem_cons, List.not_mem_nil, or_false, not_or] at hplain
  obtain ⟨hthis, hself, hsuper, hbase⟩ := hplain
  have hcall : word ≠ "super()" := by
    rintro rfl
    exact absurd hword (by decide)
  rw [explicitType, if_neg (by simp [hthis, hself]), if_neg (by simp [hsuper, hbase, hcall]),
    Text.selfMember?_of_isWord hword, created?_of_isWord hword]
  exact if_pos hword

-- A receiver has the type of the name that it asks for, and stands for itself when there is none.
theorem Asks.receiverType_eq {text name : String} (hasks : Asks text name) (scope : Scope)
    (offset : Nat) :
    scope.receiverType (some text) offset =
      (scope.typeOf? name offset).getD (Text.trim text) := by
  cases hasks with
  | @member qualifier member hqualifier htext =>
      have hne : Text.trim text ≠ "" := by
        rw [htext, Ne, ← String.toList_inj, String.toList_append]
        rcases List.mem_pair.mp hqualifier with rfl | rfl <;> simp
      rw [receiverType_of_word (Option.map_some ..) hne, htext, explicitType_of_member hqualifier]
  | word hword hplain =>
      have hne : Text.trim text ≠ "" := by
        intro hempty
        rw [hempty] at hword
        cases hword
      rw [receiverType_of_word (Option.map_some ..) hne, explicitType_of_isWord hword hplain]

theorem Asks.unique {text name other : String} (hname : Asks text name) (hother : Asks text other) :
    name = other := by
  have hmember {text qualifier member : String} (hqualifier : qualifier ∈ Text.qualifiers)
      (htext : Text.trim text = qualifier ++ member) :
      Text.selfMember? (Text.trim text) = some member :=
    Text.selfMember?_eq_some_iff.mpr ⟨qualifier, hqualifier, htext⟩
  cases hname with
  | member hqualifier htext =>
      have hfirst := hmember hqualifier htext
      cases hother with
      | member hqualifier' htext' =>
          have hsecond := hmember hqualifier' htext'
          rw [Option.some.inj (hfirst.symm.trans hsecond)]
      | word hword _ =>
          rw [Text.selfMember?_of_isWord hword] at hfirst
          cases hfirst
  | word hword _ =>
      cases hother with
      | member hqualifier htext =>
          have hsecond := hmember hqualifier htext
          rw [Text.selfMember?_of_isWord hword] at hsecond
          cases hsecond
      | word _ _ => rfl

theorem asks_this_member {name : String} (hword : Text.isWord name.toList = true) :
    Asks ("this." ++ name) name ∧ Text.trim ("this." ++ name) = "this." ++ name := by
  have hthis : "this." ∈ Text.qualifiers := by decide
  have hvisible : ∀ c ∈ ("this." ++ name).toList, Text.isBlank c = false := by
    intro c hc
    rw [String.toList_append] at hc
    rcases List.mem_append.mp hc with hfront | hname
    · exact (Text.qualifier_not_blank hthis).1 c hfront
    · exact (Text.Dotted.word hword).not_blank c hname
  have htrim : Text.trim ("this." ++ name) = "this." ++ name := by
    rw [Text.trim, Text.trimChars_of_not_blank hvisible, String.ofList_toList]
  have hasks : Asks ("this." ++ name) (Text.trim name) := .member hthis htrim
  rw [Text.trim_of_isWord hword] at hasks
  exact ⟨hasks, htrim⟩

-- A receiver that asks for no name does not look at the bindings.
theorem explicitType_of_not_asks {text : String} (hasks : ∀ name, ¬ Asks text name) (scope : Scope)
    (bindings : List Binding) (offset : Nat) :
    { scope with bindings := bindings }.explicitType (Text.trim text) offset =
      scope.explicitType (Text.trim text) offset := by
  unfold explicitType
  split
  · rfl
  · next hself =>
    split
    · rfl
    · next hsuper =>
      split
      · next member hmember =>
        obtain ⟨qualifier, hqualifier, htext⟩ := Text.selfMember?_eq_some_iff.mp hmember
        exact absurd (.member hqualifier htext) (hasks _)
      · split
        · rfl
        · split
          · next hword =>
            have hplain : Text.trim text ∉ keywords := by
              simp only [keywords, List.mem_cons, List.not_mem_nil, or_false]
              rintro (hthis | hother | hkey | hbase)
              · exact hself (Or.inl hthis)
              · exact hself (Or.inr hother)
              · exact hsuper (Or.inl hkey)
              · exact hsuper (Or.inr (Or.inl hbase))
            exact absurd (.word hword hplain) (hasks _)
          · rfl

-- Two lists of bindings that agree on the name that a receiver asks for give it the same type.
theorem receiverType_congr {scope : Scope} {bindings : List Binding} {receiver : Option String}
    {offset : Nat}
    (hagree : ∀ text ∈ receiver, ∀ name, Asks text name →
      { scope with bindings := bindings }.typeOf? name offset = scope.typeOf? name offset) :
    { scope with bindings := bindings }.receiverType receiver offset =
      scope.receiverType receiver offset := by
  cases receiver with
  | none => rfl
  | some text =>
      by_cases hasks : ∃ name, Asks text name
      · obtain ⟨name, hname⟩ := hasks
        rw [hname.receiverType_eq, hname.receiverType_eq, hagree text rfl name hname]
      · have hnone : ∀ name, ¬ Asks text name := not_exists.mp hasks
        by_cases hblank : Text.trim text = ""
        · have hreceiver : NoReceiver (some text) := by
            intro other hother
            obtain rfl := Option.some.inj hother
            exact hblank
          rw [receiverType_of_noReceiver hreceiver, receiverType_of_noReceiver hreceiver]
          rfl
        · have hword : (some text).map Text.trim = some (Text.trim text) := rfl
          rw [receiverType_of_word hword hblank, receiverType_of_word hword hblank,
            explicitType_of_not_asks hnone]

end ClassAtlas.Scope
