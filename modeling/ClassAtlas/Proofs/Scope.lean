import ClassAtlas.Scope

namespace ClassAtlas.Scope

-- There is nothing in front of the call, or only blanks.
def NoReceiver (receiver : Option String) : Prop :=
  ∀ text ∈ receiver, Text.trim text = ""

theorem receiverType_of_noReceiver {receiver : Option String} (hnone : NoReceiver receiver)
    (scope : Scope) (offset : Nat) : scope.receiverType receiver offset = scope.implicitType := by
  cases receiver with
  | none => rfl
  | some text =>
      have hblank : Text.trim text = "" := hnone text rfl
      simp [receiverType, hblank, Option.filter]

theorem receiverType_of_word {receiver : Option String} {word : String}
    (hword : receiver.map Text.trim = some word) (hne : word ≠ "") (scope : Scope) (offset : Nat) :
    scope.receiverType receiver offset = scope.explicitType word offset := by
  simp [receiverType, hword, hne, Option.filter]

-- Every receiver is of one of these two sorts.
theorem noReceiver_or_word (receiver : Option String) :
    NoReceiver receiver ∨ ∃ word, receiver.map Text.trim = some word ∧ word ≠ "" := by
  cases receiver with
  | none => exact Or.inl fun text htext => by simp at htext
  | some text =>
      by_cases hblank : Text.trim text = ""
      · left
        intro other hother
        obtain rfl := Option.some.inj hother
        exact hblank
      · exact Or.inr ⟨Text.trim text, rfl, hblank⟩

-- A receiver that stands for the superclass, blanks around it apart.
def OnSuper (receiver : Option String) : Prop :=
  receiver.map Text.trim ∈ [some "super", some "base", some "super()"]

instance : DecidablePred OnSuper := fun receiver =>
  inferInstanceAs (Decidable (receiver.map Text.trim ∈ [some "super", some "base", some "super()"]))

theorem receiverType_of_onSuper {receiver : Option String} (hsuper : OnSuper receiver)
    (scope : Scope) (offset : Nat) :
    scope.receiverType receiver offset = scope.superclass.getD scope.className := by
  have hwords : receiver.map Text.trim = some "super" ∨ receiver.map Text.trim = some "base" ∨
      receiver.map Text.trim = some "super()" := by
    simpa [OnSuper] using hsuper
  rcases hwords with hword | hword | hword <;>
    simp [receiverType_of_word hword, explicitType]

-- No other receiver looks at the superclass.
theorem receiverType_of_not_onSuper {receiver : Option String} (hsuper : ¬ OnSuper receiver)
    (scope : Scope) (superclass : Option String) (offset : Nat) :
    { scope with superclass := superclass }.receiverType receiver offset =
      scope.receiverType receiver offset := by
  rcases noReceiver_or_word receiver with hnone | ⟨word, hword, hne⟩
  · rw [receiverType_of_noReceiver hnone, receiverType_of_noReceiver hnone]
    rfl
  · have hplain : ¬ (word = "super" ∨ word = "base" ∨ word = "super()") := by
      simpa [OnSuper, hword] using hsuper
    rw [receiverType_of_word hword hne, receiverType_of_word hword hne, explicitType,
      if_neg hplain, explicitType, if_neg hplain]
    rfl

-- Nothing in sight has a blank for its type, the class itself apart.
structure Typed (scope : Scope) : Prop where
  superclass : ∀ parent ∈ scope.superclass, parent ≠ ""
  bindings : ∀ binding ∈ scope.bindings, binding.type ≠ ""

theorem foldl_later_mem (best : Binding) (rest : List Binding) :
    rest.foldl later best ∈ best :: rest := by
  induction rest generalizing best with
  | nil => simp
  | cons other rest ih =>
      have hlater : later best other = best ∨ later best other = other := by
        unfold later
        split
        · exact Or.inr rfl
        · exact Or.inl rfl
      rcases List.mem_cons.mp (ih (later best other)) with hhead | hrest
      · rw [List.foldl_cons, hhead]
        rcases hlater with hbest | hother
        · simp [hbest]
        · simp [hother]
      · exact List.mem_cons_of_mem _ (List.mem_cons_of_mem _ hrest)

theorem mem_of_latest? {bindings : List Binding} {binding : Binding}
    (hlatest : latest? bindings = some binding) : binding ∈ bindings := by
  cases bindings with
  | nil => cases hlatest
  | cons first rest =>
      obtain rfl := Option.some.inj hlatest
      exact foldl_later_mem first rest

-- The type of a name is that of one of its bindings.
theorem exists_binding_of_typeOf? {scope : Scope} {name type : String} {offset : Nat}
    (htype : scope.typeOf? name offset = some type) :
    ∃ binding ∈ scope.bindings, binding.name = name ∧ binding.type = type := by
  obtain ⟨binding, hbinding, rfl⟩ := Option.map_eq_some_iff.mp htype
  have hsame : binding ∈ scope.bindings.filter (fun binding => binding.name == name) := by
    rcases Option.or_eq_some_iff.mp hbinding with hlatest | ⟨-, hfirst⟩
    · exact (List.mem_filter.mp (mem_of_latest? hlatest)).1
    · exact List.mem_of_mem_head? hfirst
  obtain ⟨hmem, hname⟩ := List.mem_filter.mp hsame
  exact ⟨binding, hmem, by simpa using hname, rfl⟩

section Typed

variable {scope : Scope} (htyped : scope.Typed) (hname : scope.className ≠ "")

include htyped

theorem Typed.typeOf?_getD_ne {receiver : String} (hne : receiver ≠ "") (name : String)
    (offset : Nat) : (scope.typeOf? name offset).getD receiver ≠ "" := by
  cases htype : scope.typeOf? name offset with
  | none => exact hne
  | some type =>
      obtain ⟨binding, hbinding, -, rfl⟩ := exists_binding_of_typeOf? htype
      exact htyped.bindings binding hbinding

include hname

theorem Typed.explicitType_ne {receiver : String} (hne : receiver ≠ "") (offset : Nat) :
    scope.explicitType receiver offset ≠ "" := by
  unfold explicitType
  split
  · exact hname
  · split
    · cases hsuper : scope.superclass with
      | none => exact hname
      | some parent => exact htyped.superclass parent hsuper
    · split
      · exact htyped.typeOf?_getD_ne hne _ _
      · split
        · next type htype =>
          have htype := (Option.filter_eq_some_iff.mp htype).2
          simpa using htype
        · split
          · exact htyped.typeOf?_getD_ne hne _ _
          · exact hne

-- In a class with a name, only a call without a receiver can be left without a type, and it is
-- where it cannot be meant for the class.
theorem Typed.receiverType_eq_empty_iff (receiver : Option String) (offset : Nat) :
    scope.receiverType receiver offset = "" ↔
      NoReceiver receiver ∧ scope.language.callsOwnMethods = false := by
  rcases noReceiver_or_word receiver with hnone | ⟨word, hword, hne⟩
  · rw [receiverType_of_noReceiver hnone, implicitType]
    cases scope.language.callsOwnMethods <;> simp [hnone, hname]
  · have hsome : ¬ NoReceiver receiver := by
      intro hnone
      obtain ⟨text, htext, hblank⟩ := Option.map_eq_some_iff.mp hword
      exact hne (hblank.symm.trans (hnone text htext))
    rw [receiverType_of_word hword hne]
    simp [hsome, htyped.explicitType_ne hname hne]

end Typed

end ClassAtlas.Scope
