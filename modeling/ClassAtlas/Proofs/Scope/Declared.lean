import ClassAtlas.Proofs.Scope.Nearest
import ClassAtlas.Proofs.Written

namespace ClassAtlas

namespace Scope

-- A word that does not stand for the class or its superclass.
def PlainWord (text : String) : Prop :=
  Text.isWord (Text.trim text).toList = true ∧ Text.trim text ∉ keywords

-- A binding of the scope to which its name belongs alone.
def OnlyOfName (scope : Scope) (binding : Binding) : Prop :=
  binding ∈ scope.bindings ∧ ∀ other ∈ scope.bindings, other.name = binding.name → other = binding

-- Where a name has one binding only, it does not matter where the call stands.
theorem OnlyOfName.typeOf?_eq {scope : Scope} {binding : Binding}
    (honly : scope.OnlyOfName binding) (offset : Nat) :
    scope.typeOf? binding.name offset = some binding.type := by
  obtain ⟨hmem, hunique⟩ := honly
  cases htype : scope.typeOf? binding.name offset with
  | none => exact absurd rfl (typeOf?_eq_none_iff.mp htype binding hmem)
  | some type =>
      obtain ⟨other, hother, hname, rfl⟩ := exists_binding_of_typeOf? htype
      rw [hunique other hother hname]

theorem asks_unqualified_of_qualified {text : String} (hqualified : Text.Qualified text) :
    Asks text (Text.unqualified text) := by
  obtain ⟨qualifier, hqualifier, member, htext⟩ := hqualified
  rw [Text.unqualified_of_trim_eq hqualifier htext]
  exact .member hqualifier htext

theorem asks_unqualified_of_plainWord {text : String} (hplain : PlainWord text) :
    Asks text (Text.unqualified text) := by
  obtain ⟨hword, hkey⟩ := hplain
  have hname : Text.unqualified text = Text.trim text := by
    rw [Text.unqualified, Text.selfMember?_of_isWord hword, Option.getD_none,
      Text.trim_of_isWord hword]
  rw [hname]
  exact .word hword hkey

theorem asks_unqualified_of_writesMember {member text : String}
    (hwrites : Text.WritesMember member text) : Asks text (Text.unqualified text) := by
  obtain ⟨qualifier, hqualifier, rest, htext, -⟩ := hwrites.exists_trim_eq
  exact asks_unqualified_of_qualified ⟨qualifier, hqualifier, rest, htext⟩

end Scope

-- What is declared under a text is found under the same text: a binding with a captured name is
-- the type of that name as a receiver, wherever the call stands. A member of the current object is
-- declared and found alike in all the ways in which it can be written.
theorem declared_name_is_found (text type : String) (place : Nat)
    (hname : Text.unqualified text ≠ "") (htype : Text.typeName type ≠ "") :
    let binding : Binding := ⟨Text.unqualified text, Text.typeName type, place⟩
    (∀ (document : Document) (found : Match) (nameNode typeNode : Node),
      found.first? "decl.name" = some nameNode → found.first? "decl.type" = some typeNode →
      document.text nameNode = text → document.text typeNode = type → nameNode.start = place →
      binding ∈ Binding.ofMatch document found) ∧
    ∀ (scope : Scope), scope.OnlyOfName binding → ∀ offset : Nat,
      (Text.Qualified text ∨ Scope.PlainWord text →
        scope.receiverType (some text) offset = Text.typeName type) ∧
      (Text.Qualified text →
        Text.WritesMember (Text.unqualified text) text ∧
        ∀ other, Text.WritesMember (Text.unqualified text) other →
          Text.unqualified other = Text.unqualified text ∧
          scope.receiverType (some other) offset = Text.typeName type) := by
  intro binding
  refine ⟨?_, fun scope honly offset => ?_⟩
  · intro document found nameNode typeNode hnameNode htypeNode htext htypeText hstart
    refine Binding.mem_ofMatch_iff.mpr ⟨_, _, typeNode, .captured hnameNode htypeNode, ?_⟩
    rw [htext, htypeText, hstart]
    exact Binding.make?_eq_some_iff.mpr ⟨hname, htype, rfl⟩
  · have hfound {other : String} (hasks : Scope.Asks other (Text.unqualified text)) :
        scope.receiverType (some other) offset = Text.typeName type := by
      rw [hasks.receiverType_eq, honly.typeOf?_eq offset]
      rfl
    refine ⟨?_, fun hqualified => ⟨hqualified.writesMember, fun other hother => ?_⟩⟩
    · rintro (hqualified | hplain)
      · exact hfound (Scope.asks_unqualified_of_qualified hqualified)
      · exact hfound (Scope.asks_unqualified_of_plainWord hplain)
    · have hsame : Text.unqualified other = Text.unqualified text := by
        rw [hother.unqualified_eq, Text.trim_unqualified]
      refine ⟨hsame, hfound ?_⟩
      rw [← hsame]
      exact Scope.asks_unqualified_of_writesMember hother

theorem spacedMember_is_found :
    let scope : Scope := ⟨.python, "A", none, [⟨"log", "Log", 4⟩, ⟨"repo", "Repo", 10⟩]⟩
    scope.receiverType (some " self. repo ") 3 = "Repo" ∧
      scope.receiverType (some "this.repo") 3 = "Repo" := by
  intro scope
  have hname : Text.unqualified " self. repo " = "repo" := by decide +kernel
  have htype : Text.typeName "Repo<T>" = "Repo" := by decide +kernel
  have hqualified : Text.Qualified " self. repo " :=
    ⟨"self.", by decide, " repo", by decide +kernel⟩
  have hother : Text.WritesMember "repo" "this.repo" := by
    have hthis : Text.Qualified "this.repo" := ⟨"this.", by decide, "repo", by decide +kernel⟩
    have hmember : Text.unqualified "this.repo" = "repo" := by decide +kernel
    simpa only [hmember] using hthis.writesMember
  obtain ⟨-, hfound⟩ := declared_name_is_found " self. repo " "Repo<T>" 10
    (by rw [hname]; decide) (by rw [htype]; decide)
  rw [hname, htype] at hfound
  obtain ⟨htext, hways⟩ := hfound scope ⟨by decide, by decide⟩ 3
  exact ⟨htext (Or.inl hqualified), ((hways hqualified).2 "this.repo" hother).2⟩

end ClassAtlas
