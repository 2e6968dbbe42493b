import ClassAtlas.Proofs.Assembly
import ClassAtlas.Proofs.Scope.Nearest
import ClassAtlas.Proofs.Text.LeadingName

namespace ClassAtlas

namespace Scope

open Text (Blank DottedName blank_empty)

def Spaced (text : String) : Prop := ∃ c ∈ text.toList, Text.isBlank c = true

-- Neither the words that a receiver is compared with nor names have blanks in them, so that a
-- receiver with blanks that is no member can only be a new object.
theorem explicitType_of_spaced {text : String} (hspaced : Spaced text)
    (hmember : Text.selfMember? text = none) (scope : Scope) (offset : Nat) :
    scope.explicitType text offset = (created? text).getD text := by
  obtain ⟨c, hc, hblank⟩ := hspaced
  have hother {word : String} (hword : word.toList.all (fun d => !Text.isBlank d) = true) :
      text ≠ word := by
    rintro rfl
    simpa [hblank] using List.all_eq_true.mp hword c hc
  have hself : ¬ (text = "this" ∨ text = "self") :=
    not_or.mpr ⟨hother (by decide), hother (by decide)⟩
  have hsuper : ¬ (text = "super" ∨ text = "base" ∨ text = "super()") :=
    not_or.mpr ⟨hother (by decide), not_or.mpr ⟨hother (by decide), hother (by decide)⟩⟩
  have hword : ¬ Text.isWord text.toList = true := by
    intro hword
    have hnot := (Text.Dotted.word hword).not_blank c hc
    rw [hblank] at hnot
    cases hnot
  rw [explicitType, if_neg hself, if_neg hsuper, hmember]
  cases created? text with
  | some type => rfl
  | none => exact if_neg hword

theorem receiverType_of_spaced {text : String} (htrim : Text.trim text = text)
    (hspaced : Spaced text) (scope : Scope) (offset : Nat) :
    scope.receiverType (some text) offset = scope.explicitType text offset := by
  have hne : text ≠ "" := by
    rintro rfl
    obtain ⟨c, hc, -⟩ := hspaced
    cases hc
  exact receiverType_of_word (by rw [Option.map_some, htrim]) hne scope offset

-- The current object, as a receiver names it in front of a member.
def objects : List String := ["this", "self"]

-- A member of the current object with blanks on both sides of the dot.
def spacedMember (object before behind name : String) : String :=
  object ++ before ++ "." ++ behind ++ name

-- A new object of a type, with blanks behind the first word.
def spacedNew (gap type : String) : String :=
  "new" ++ gap ++ type ++ "()"

section Member

variable {object before behind name : String} (hobject : object ∈ objects)
  (hword : Text.isWord name.toList = true)

include hobject hword

theorem trim_spacedMember :
    Text.trim (spacedMember object before behind name) =
      spacedMember object before behind name := by
  apply Text.trim_eq_self
  · rcases List.mem_pair.mp hobject with rfl | rfl <;>
      simp [spacedMember, Text.isBlank]
  · intro c hc
    have hlast : c ∈ name.toList := by
      obtain ⟨d, rest, hname⟩ := List.exists_cons_of_ne_nil (l := name.toList) (by
        intro hnil
        rw [hnil] at hword
        cases hword)
      rw [spacedMember, String.toList_append, hname, List.getLast?_append_cons] at hc
      rw [hname]
      exact List.mem_of_getLast? hc
    exact (Text.Dotted.word hword).not_blank c hlast

-- Without blanks in front of the dot the member is asked for, whatever blanks follow.
theorem asks_spacedMember (hbehind : Blank behind) :
    Asks (spacedMember object "" behind name) name := by
  have hqualifier : object ++ "." ∈ Text.qualifiers := by
    rcases List.mem_pair.mp hobject with rfl | rfl <;> decide
  have htext : Text.trim (spacedMember object "" behind name) =
      (object ++ ".") ++ (behind ++ name) := by
    rw [trim_spacedMember hobject hword, spacedMember, String.append_empty, String.append_assoc]
  have hmember : Text.trim (behind ++ name) = name := by
    have hgone := Text.trim_blank_append_blank hbehind blank_empty name
    rw [String.append_empty] at hgone
    rw [hgone, Text.trim_of_isWord hword]
  have hasks : Asks (spacedMember object "" behind name) (Text.trim (behind ++ name)) :=
    .member hqualifier htext
  rwa [hmember] at hasks

theorem receiverType_of_typeOf? (hbehind : Blank behind) {scope : Scope} {offset : Nat}
    {found : String} (hfound : scope.typeOf? name offset = some found) :
    scope.receiverType (some (spacedMember object "" behind name)) offset = found := by
  rw [(asks_spacedMember hobject hword hbehind).receiverType_eq, hfound, Option.getD_some]

-- With a blank in front of the dot the receiver is not taken for a member at all.
theorem receiverType_spacedMember (hbefore : Blank before) (hne : before ≠ "") (scope : Scope)
    (offset : Nat) :
    scope.receiverType (some (spacedMember object before behind name)) offset =
      spacedMember object before behind name := by
  obtain ⟨c, rest, hchars, hblank⟩ := hbefore.exists_cons hne
  have hdot : c ≠ '.' := by
    rintro rfl
    exact absurd hblank (by decide)
  have hspaced : Spaced (spacedMember object before behind name) :=
    ⟨c, by simp [spacedMember, hchars], hblank⟩
  have hmember : Text.selfMember? (spacedMember object before behind name) = none := by
    rw [Text.selfMember?_eq_none_iff]
    intro qualifier hqualifier member htext
    rw [← String.toList_inj] at htext
    rcases List.mem_pair.mp hobject with rfl | rfl <;>
      rcases List.mem_pair.mp hqualifier with rfl | rfl <;>
      simp [spacedMember, hchars, hdot] at htext
  have hcreated : created? (spacedMember object before behind name) = none := by
    have hnew : Text.after? "new " (spacedMember object before behind name) = none := by
      rw [Text.after?_eq_none_iff]
      intro other hother
      rw [← String.toList_inj] at hother
      rcases List.mem_pair.mp hobject with rfl | rfl <;> simp [spacedMember] at hother
    rw [created?, hnew]
    rfl
  rw [receiverType_of_spaced (trim_spacedMember hobject hword) hspaced,
    explicitType_of_spaced hspaced hmember, hcreated, Option.getD_none]

end Member

theorem spaced_spacedNew (type : String) {gap : String} (hgap : Blank gap) (hne : gap ≠ "") :
    Spaced (spacedNew gap type) := by
  obtain ⟨c, rest, hchars, hblank⟩ := hgap.exists_cons hne
  exact ⟨c, by simp [spacedNew, hchars], hblank⟩

section New

variable {gap type : String} (htype : DottedName type) (hgap : Blank gap) (hne : gap ≠ "")

include hgap hne

theorem receiverType_spacedNew (scope : Scope) (offset : Nat) :
    scope.receiverType (some (spacedNew gap type)) offset =
      (created? (spacedNew gap type)).getD (spacedNew gap type) := by
  have hspaced := spaced_spacedNew type hgap hne
  have htrim : Text.trim (spacedNew gap type) = spacedNew gap type := by
    apply Text.trim_eq_self
    · simp [spacedNew, Text.isBlank]
    · intro c hc
      have hlast : some ')' = some c := by
        rwa [spacedNew, String.toList_append, List.getLast?_append] at hc
      obtain rfl := Option.some.inj hlast
      decide
  have hmember : Text.selfMember? (spacedNew gap type) = none := by
    rw [Text.selfMember?_eq_none_iff]
    intro qualifier hqualifier member htext
    rw [← String.toList_inj] at htext
    rcases List.mem_pair.mp hqualifier with rfl | rfl <;> simp [spacedNew] at htext
  rw [receiverType_of_spaced htrim hspaced, explicitType_of_spaced hspaced hmember]

include htype

-- Only a space is looked for behind the first word, other blanks are not.
theorem receiverType_spacedNew_eq_iff (scope : Scope) (offset : Nat) :
    scope.receiverType (some (spacedNew gap type)) offset = type ↔ ∃ rest, gap = " " ++ rest := by
  rw [receiverType_spacedNew hgap hne]
  constructor
  · intro heq
    cases hnew : Text.after? "new " (spacedNew gap type) with
    | some rest =>
        obtain ⟨c, more, hchars, -⟩ := hgap.exists_cons hne
        rw [Text.after?_eq_some_iff, ← String.toList_inj] at hnew
        obtain ⟨hspace, -⟩ : c = ' ' ∧ more ++ (type.toList ++ ['(', ')']) = rest.toList := by
          simpa [spacedNew, hchars] using hnew
        refine ⟨String.ofList more, ?_⟩
        rw [← String.toList_inj, hchars, hspace]
        simp
    | none =>
        -- The receiver stands for itself then, and it is no name.
        obtain ⟨c, hc, hblank⟩ := spaced_spacedNew type hgap hne
        rw [created?, hnew] at heq
        have hnot := htype.not_blank c (by rw [← heq]; exact hc)
        rw [hblank] at hnot
        cases hnot
  · rintro ⟨rest, rfl⟩
    have hrest : Blank rest := by
      intro c hc
      exact hgap c (by simp [hc])
    have hnew : Text.after? "new " (spacedNew (" " ++ rest) type) =
        some (rest ++ type ++ "()") := by
      rw [Text.after?_eq_some_iff, ← String.toList_inj]
      simp [spacedNew]
    have hname : Text.typeName (rest ++ type ++ "()") = type := by
      have hgone := Text.typeName_blank_append_blank hrest blank_empty (type ++ "()")
      rw [String.append_empty, ← String.append_assoc] at hgone
      rw [hgone, Text.typeName_append_eq_iff htype, ← Text.nameTail_eq_nil_iff]
      decide
    simp [created?, hnew, hname, htype.ne_empty, Option.filter]

end New

-- Blanks inside a receiver do not matter behind the dot of a member, nor behind a first space
-- after `new`. In front of the dot they do, and so does any other blank in place of that space: the
-- receiver is not read then and stands for itself.
theorem inner_blanks_ignored_iff (scope : Scope) (name : String)
    (hword : Text.isWord name.toList = true)
    (hdeclared : ∃ binding ∈ scope.bindings, binding.name = name) (type : String)
    (htype : DottedName type) (offset : Nat) :
    (∀ object ∈ objects, ∀ before behind, Blank before → Blank behind →
      let spaced := scope.receiverType (some (spacedMember object before behind name)) offset
      let plain := scope.receiverType (some (object ++ "." ++ name)) offset
      (spaced = if before = "" then plain else spacedMember object before behind name) ∧
      (spaced = plain ↔ before = "" ∨
        scope.typeOf? name offset = some (spacedMember object before behind name)) ∧
      ((∀ binding ∈ scope.bindings, DottedName binding.type) →
        (spaced = plain ↔ before = ""))) ∧
    ∀ gap, Blank gap → gap ≠ "" →
      (scope.receiverType (some (spacedNew gap type)) offset = type ↔
        ∃ rest, gap = " " ++ rest) := by
  refine ⟨?_, fun gap hgap hne => receiverType_spacedNew_eq_iff htype hgap hne scope offset⟩
  intro object hobject before behind hbefore hbehind spaced plain
  obtain ⟨binding, hbinding, hname⟩ := hdeclared
  obtain ⟨found, hfound⟩ : ∃ found, scope.typeOf? name offset = some found := by
    rw [← Option.isSome_iff_exists, Option.isSome_iff_ne_none]
    exact fun hnone => typeOf?_eq_none_iff.mp hnone binding hbinding hname
  have hplain : plain = found := by
    have hsame : object ++ "." ++ name = spacedMember object "" "" name := by
      rw [spacedMember, String.append_empty, String.append_empty]
    have hread := receiverType_of_typeOf? hobject hword blank_empty hfound
    rwa [← hsame] at hread
  by_cases hempty : before = ""
  · have hspaced : spaced = plain := by
      have hread := receiverType_of_typeOf? hobject hword hbehind hfound
      rw [← hempty] at hread
      exact hread.trans hplain.symm
    simp [hempty, hspaced]
  · have hspaced : spaced = spacedMember object before behind name :=
      receiverType_spacedMember hobject hword hbefore hempty scope offset
    have hequal : spaced = plain ↔
        scope.typeOf? name offset = some (spacedMember object before behind name) := by
      rw [hspaced, hplain, hfound, Option.some.injEq, eq_comm]
    refine ⟨by rw [if_neg hempty, hspaced], by simp [hequal, hempty], ?_⟩
    intro htypes
    rw [hequal]
    refine iff_of_false ?_ hempty
    intro htext
    obtain ⟨other, hother, -, hspelled⟩ := exists_binding_of_typeOf? htext
    obtain ⟨c, rest, hchars, hblank⟩ := hbefore.exists_cons hempty
    have hvisible := (htypes other hother).not_blank c (by simp [hspelled, spacedMember, hchars])
    rw [hblank] at hvisible
    cases hvisible

theorem spacedField_type_is_found :
    let scope : Scope := ⟨.java, "A", none, [⟨"x", "Foo", 3⟩, ⟨"x", "Bar", 40⟩]⟩
    scope.receiverType (some "self.\n x") 9 = scope.receiverType (some "self.x") 9 ∧
      scope.receiverType (some "new \tns.T()") 9 = "ns.T" := by
  intro scope
  obtain ⟨hmembers, hnew⟩ := inner_blanks_ignored_iff scope "x" (by decide)
    ⟨⟨"x", "Foo", 3⟩, by decide, rfl⟩ "ns.T" (by decide +kernel) 9
  have hbehind : "\n ".toList.all Text.isBlank = true := by decide
  have hgap : " \t".toList.all Text.isBlank = true := by decide
  obtain ⟨-, hmember, -⟩ := hmembers "self" (by decide) "" "\n " blank_empty
    (List.all_eq_true.mp hbehind)
  exact ⟨hmember.mpr (Or.inl rfl),
    (hnew " \t" (List.all_eq_true.mp hgap) (by decide)).mpr ⟨"\t", rfl⟩⟩

end Scope

-- A call on a member, with each link of the chain on a line of its own.
def brokenChain : Document where
  source := "class A \x7b m() \x7b this.x = new X(); this\n.x\n.go(); \x7d \x7d"
  root := .branch "program" none 0 52 [
    .branch "class_declaration" none 0 52 [
      .token "class" 0 5,
      .branch "identifier" (some "name") 6 7 [],
      .branch "class_body" (some "body") 8 52 [
        .token "\x7b" 8 9,
        .branch "method_definition" (some "member") 10 50 [
          .branch "property_identifier" (some "name") 10 11 [],
          .branch "formal_parameters" (some "parameters") 11 13 [
            .token "(" 11 12,
            .token ")" 12 13],
          .branch "statement_block" (some "body") 14 50 [
            .token "\x7b" 14 15,
            .branch "expression_statement" none 16 33 [
              .branch "assignment_expression" none 16 32 [
                .branch "member_expression" (some "left") 16 22 [
                  .branch "this" (some "object") 16 20 [],
                  .token "." 20 21,
                  .branch "property_identifier" (some "property") 21 22 []],
                .token "=" 23 24,
                .branch "new_expression" (some "right") 25 32 [
                  .token "new" 25 28,
                  .branch "identifier" (some "constructor") 29 30 [],
                  .branch "arguments" (some "arguments") 30 32 [
                    .token "(" 30 31,
                    .token ")" 31 32]]],
              .token ";" 32 33],
            .branch "expression_statement" none 34 48 [
              .branch "call_expression" none 34 47 [
                .branch "member_expression" (some "function") 34 45 [
                  .branch "member_expression" (some "object") 34 41 [
                    .branch "this" (some "object") 34 38 [],
                    .token "." 39 40,
                    .branch "property_identifier" (some "property") 40 41 []],
                  .token "." 42 43,
                  .branch "property_identifier" (some "property") 43 45 []],
                .branch "arguments" (some "arguments") 45 47 [.token "(" 45 46, .token ")" 46 47]],
              .token ";" 47 48],
            .token "\x7d" 49 50]],
        .token "\x7d" 51 52]]]

theorem brokenChain_type_is_lost :
    let facts := Facts.gather (.builtIn .javascript) brokenChain
    let scope := facts.scope .javascript 0 ⟨"A", ⟨0, 52⟩⟩
    scope.bindings = [⟨"x", "X", 21⟩] ∧
      scope.receiverType (some "this.x") 34 = "X" ∧
      scope.receiverType (some "this\n.x") 34 = "this\n.x" ∧
      scope.receiverType (some "new\tX()") 34 = "new\tX()" ∧
      (Extraction.ofDocument .javascript (.builtIn .javascript) "a.js" brokenChain).entry =
        ⟨"a.js", [⟨"A", [], none, [⟨"m", none⟩], [⟨"A", "go", "this\n.x"⟩]⟩]⟩ := by
  decide +kernel

end ClassAtlas
