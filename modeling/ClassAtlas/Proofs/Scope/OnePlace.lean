import ClassAtlas.Proofs.Assembly
import ClassAtlas.Proofs.Scope.Nearest

namespace ClassAtlas

namespace Scope

-- Of bindings that all stand at one place, the last in the list is taken.
theorem latest?_of_one_place {bindings : List Binding} {place : Nat}
    (hplace : ∀ binding ∈ bindings, binding.offset = place) :
    latest? bindings = bindings.getLast? := by
  rcases List.eq_nil_or_concat bindings with rfl | ⟨front, last, rfl⟩
  · rfl
  · rw [List.concat_eq_append] at hplace ⊢
    have hlatest : Latest (front ++ [last]) last := by
      refine ⟨front, [], rfl, fun binding hbinding => ?_, by simp⟩
      have hfirst := hplace binding (by simp [hbinding])
      have hlast := hplace last (by simp)
      omega
    rw [latest?_eq_some_iff.mpr hlatest, List.getLast?_concat]

section OnePlace

variable {scope : Scope} {name : String} {place : Nat}
  (hplace : ∀ binding ∈ scope.bindings, binding.name = name → binding.offset = place)

include hplace

theorem preceding_of_one_place (offset : Nat) :
    preceding scope.bindings name offset =
      if place ≤ offset then named scope.bindings name else [] := by
  unfold preceding
  split
  · next hbefore =>
    refine List.filter_eq_self.mpr fun binding hbinding => ?_
    obtain ⟨hmem, hname⟩ := mem_named.mp hbinding
    simpa [hplace binding hmem hname] using hbefore
  · next hbehind =>
    refine List.filter_eq_nil_iff.mpr fun binding hbinding => ?_
    obtain ⟨hmem, hname⟩ := mem_named.mp hbinding
    simpa [hplace binding hmem hname] using hbehind

-- In front of the place the first binding counts, from there on the last one.
theorem typeOf?_of_one_place (offset : Nat) :
    scope.typeOf? name offset =
      (if place ≤ offset then (named scope.bindings name).getLast?
        else (named scope.bindings name).head?).map (·.type) := by
  have hnamed : ∀ binding ∈ named scope.bindings name, binding.offset = place := by
    intro binding hbinding
    obtain ⟨hmem, hname⟩ := mem_named.mp hbinding
    exact hplace binding hmem hname
  rw [typeOf?_eq, preceding_of_one_place hplace]
  split
  · rw [latest?_of_one_place hnamed]
    cases hall : named scope.bindings name with
    | nil => rfl
    | cons first rest => rw [List.getLast?_cons]; rfl
  · rfl

end OnePlace

-- A member that is declared at one place, in however many ways, has the type of its first binding
-- for the calls in front of it and that of its last binding for the others. Its type does not
-- depend on the call just when these are the same.
theorem one_place_one_type_iff (scope : Scope) (name : String)
    (hword : Text.isWord name.toList = true) (place : Nat)
    (hplace : ∀ binding ∈ scope.bindings, binding.name = name → binding.offset = place) :
    let first := (named scope.bindings name).head?.map (·.type)
    let last := (named scope.bindings name).getLast?.map (·.type)
    (∀ offset : Nat, scope.receiverType (some ("this." ++ name)) offset =
      (if place ≤ offset then last else first).getD ("this." ++ name)) ∧
    ∀ early late : Nat,
      scope.receiverType (some ("this." ++ name)) early =
          scope.receiverType (some ("this." ++ name)) late ↔
        ((place ≤ early ↔ place ≤ late) ∨ first = last) := by
  intro first last
  obtain ⟨hasks, htrim⟩ := asks_this_member hword
  have htype (offset : Nat) : scope.receiverType (some ("this." ++ name)) offset =
      (if place ≤ offset then last else first).getD ("this." ++ name) := by
    rw [hasks.receiverType_eq, htrim, typeOf?_of_one_place hplace]
    split <;> rfl
  refine ⟨htype, fun early late => ?_⟩
  rw [htype, htype]
  have hdefault : first.getD ("this." ++ name) = last.getD ("this." ++ name) ↔ first = last := by
    cases hall : named scope.bindings name with
    | nil => simp [first, last, hall]
    | cons binding rest => simp [first, last, hall, List.getLast?_cons]
  by_cases hearly : place ≤ early <;> by_cases hlate : place ≤ late <;>
    simp [hearly, hlate, hdefault, eq_comm (a := last.getD _)]

theorem plainField_one_type :
    let scope : Scope := ⟨.typescript, "A", none, [⟨"x", "Foo", 31⟩, ⟨"x", "Foo", 31⟩]⟩
    scope.receiverType (some "this.x") 16 = scope.receiverType (some "this.x") 57 := by
  intro scope
  obtain ⟨-, hsame⟩ := one_place_one_type_iff scope "x" (by decide) 31 (by decide)
  exact (hsame 16 57).mpr (Or.inr (by decide))

end Scope

-- A field with a type and a value of another type, between two methods that use it.
def typedField : Document where
  source := "class A \x7b k() \x7b this.x.go(); \x7d x: Foo = new Bar(); m() \x7b this.x.go(); \x7d \x7d"
  root := .branch "program" none 0 73 [
    .branch "class_declaration" none 0 73 [
      .token "class" 0 5,
      .branch "type_identifier" (some "name") 6 7 [],
      .branch "class_body" (some "body") 8 73 [
        .token "\x7b" 8 9,
        .branch "method_definition" none 10 30 [
          .branch "property_identifier" (some "name") 10 11 [],
          .branch "formal_parameters" (some "parameters") 11 13 [
            .token "(" 11 12,
            .token ")" 12 13],
          .branch "statement_block" (some "body") 14 30 [
            .token "\x7b" 14 15,
            .branch "expression_statement" none 16 28 [
              .branch "call_expression" none 16 27 [
                .branch "member_expression" (some "function") 16 25 [
                  .branch "member_expression" (some "object") 16 22 [
                    .branch "this" (some "object") 16 20 [],
                    .token "." 20 21,
                    .branch "property_identifier" (some "property") 21 22 []],
                  .token "." 22 23,
                  .branch "property_identifier" (some "property") 23 25 []],
                .branch "arguments" (some "arguments") 25 27 [.token "(" 25 26, .token ")" 26 27]],
              .token ";" 27 28],
            .token "\x7d" 29 30]],
        .branch "public_field_definition" none 31 49 [
          .branch "property_identifier" (some "name") 31 32 [],
          .branch "type_annotation" (some "type") 32 37 [
            .token ":" 32 33,
            .branch "type_identifier" none 34 37 []],
          .token "=" 38 39,
          .branch "new_expression" (some "value") 40 49 [
            .token "new" 40 43,
            .branch "identifier" (some "constructor") 44 47 [],
            .branch "arguments" (some "arguments") 47 49 [.token "(" 47 48, .token ")" 48 49]]],
        .token ";" 49 50,
        .branch "method_definition" none 51 71 [
          .branch "property_identifier" (some "name") 51 52 [],
          .branch "formal_parameters" (some "parameters") 52 54 [
            .token "(" 52 53,
            .token ")" 53 54],
          .branch "statement_block" (some "body") 55 71 [
            .token "\x7b" 55 56,
            .branch "expression_statement" none 57 69 [
              .branch "call_expression" none 57 68 [
                .branch "member_expression" (some "function") 57 66 [
                  .branch "member_expression" (some "object") 57 63 [
                    .branch "this" (some "object") 57 61 [],
                    .token "." 61 62,
                    .branch "property_identifier" (some "property") 62 63 []],
                  .token "." 63 64,
                  .branch "property_identifier" (some "property") 64 66 []],
                .branch "arguments" (some "arguments") 66 68 [.token "(" 66 67, .token ")" 67 68]],
              .token ";" 68 69],
            .token "\x7d" 70 71]],
        .token "\x7d" 72 73]]]

-- The value's match reaches further than that of the type, so that its binding comes first.
theorem typedField_type_depends_on_call :
    let facts := Facts.gather (.builtIn .typescript) typedField
    let scope := facts.scope .typescript 0 ⟨"A", ⟨0, 73⟩⟩
    scope.bindings = [⟨"x", "Bar", 31⟩, ⟨"x", "Foo", 31⟩] ∧
      scope.receiverType (some "this.x") 16 ≠ scope.receiverType (some "this.x") 57 ∧
      (Extraction.ofDocument .typescript (.builtIn .typescript) "a.ts" typedField).entry =
        ⟨"a.ts", [⟨"A", [], none, [⟨"k", none⟩, ⟨"m", none⟩],
          [⟨"A", "go", "Bar"⟩, ⟨"A", "go", "Foo"⟩]⟩]⟩ := by
  let book := RuleBook.builtIn .typescript
  have hmethods : book.hits .methods typedField = book.unsorted .methods typedField :=
    RuleBook.hits_of_sorted (by decide +kernel)
  have hcalls : book.hits .calls typedField = book.unsorted .calls typedField :=
    RuleBook.hits_of_sorted (by decide +kernel)
  have hdeclared : book.hits .declarations typedField =
      (book.unsorted .declarations typedField).reverse :=
    RuleBook.hits_of_perm (List.reverse_perm _).symm (by decide +kernel)
  rw [Extraction.ofDocument, Facts.gather_eq, hmethods, hcalls, hdeclared]
  decide +kernel

end ClassAtlas
