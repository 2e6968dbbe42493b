import ClassAtlas.Extraction
import ClassAtlas.Proofs.Call.Form
import ClassAtlas.Proofs.Query.Match

namespace ClassAtlas

-- What is recorded about a call.
def Call.ofParts (document : Document) (call callee : Node) (object : Option Node) : Call where
  name := document.text callee
  arguments := []
  startRow := document.startRow callee
  stopRow := document.stopRow callee
  receiver := (object.map fun node => Text.trim (document.text node)).filter (· ≠ "")
  offset := call.start

-- What is captured of a call.
def callCaptures (call callee : Node) (object : Option Node) : List Capture :=
  ("method.call", call) ::
    ((object.map fun node => ("method.object", node)).toList ++ [("method.name", callee)])

theorem Call.ofMatch_callCaptures (document : Document) (rule : Nat) (call callee : Node)
    (object : Option Node) :
    Call.ofMatch document ⟨rule, callCaptures call callee object⟩ =
      Call.ofParts document call callee object := by
  cases object <;>
    simp [callCaptures, Call.ofMatch, Call.ofParts, Call.receiver?, Match.text, Match.first?,
      Match.all]

open Catalog Pattern

namespace MemberForm

variable (form : MemberForm)

def objectPattern : Pattern :=
  field form.objectField (capture "method.object"
    (node (if form.namedObject then .named else .any) []))

def namePattern : Pattern :=
  field form.nameField (capture "method.name"
    (match form.nameKinds with
      | [kind] => ofKind kind
      | kinds => oneOf (kinds.map ofKind)))

theorem mem_fits_objectPattern {object : Node} {captures : List Capture} :
    captures ∈ fits form.objectPattern object ↔
      (object.field = some form.objectField ∧ object.kind ≠ "ERROR" ∧
        (form.namedObject = true → object.named = true)) ∧
      captures = [("method.object", object)] := by
  rw [objectPattern, mem_fits_field, mem_fits_capture]
  cases form.namedObject <;> by_cases herror : object.kind = "ERROR" <;>
    by_cases hnamed : object.named = true <;>
    simp [fits, fitsAmong, NodeTest.accepts, herror, hnamed]

theorem mem_fits_namePattern {name : Node} {captures : List Capture} :
    captures ∈ fits form.namePattern name ↔
      (name.field = some form.nameField ∧ name.named = true ∧ name.kind ∈ form.nameKinds) ∧
      captures = [("method.name", name)] := by
  rw [namePattern, mem_fits_field, mem_fits_capture, and_assoc]
  refine and_congr_right fun _ => ?_
  split
  · next kind hkinds => simp [mem_fits_ofKind, Node.IsKind, hkinds]
  · simp only [fits, mem_fitsAny, List.mem_map]
    constructor
    · rintro ⟨_, ⟨_, ⟨kind, hkind, rfl⟩, hfits⟩, rfl⟩
      obtain ⟨⟨hnamed, rfl⟩, rfl⟩ := mem_fits_ofKind.mp hfits
      exact ⟨⟨hnamed, hkind⟩, rfl⟩
    · rintro ⟨⟨hnamed, hkind⟩, rfl⟩
      exact ⟨[], ⟨_, ⟨name.kind, hkind, rfl⟩, mem_fits_ofKind.mpr ⟨⟨hnamed, rfl⟩, rfl⟩⟩, rfl⟩

theorem mem_fitsAmong_patterns {found : Node} {captures : List Capture} :
    captures ∈ fitsAmong [form.objectPattern, form.namePattern] found.children ↔
      ∃ object name, form.Names found object name ∧
        captures = [("method.object", object), ("method.name", name)] := by
  have hobject : form.objectPattern.isOptional = false := isOptional_field ..
  have hname : form.namePattern.isOptional = false := isOptional_field ..
  rw [mem_fitsAmong_pair hobject hname]
  simp only [mem_fits_objectPattern, mem_fits_namePattern]
  constructor
  · rintro ⟨object, name, _, _, hbehind, ⟨hobject, rfl⟩, ⟨hname, rfl⟩, rfl⟩
    exact ⟨object, name, ⟨hbehind, hobject, hname⟩, rfl⟩
  · rintro ⟨object, name, ⟨hbehind, hobject, hname⟩, rfl⟩
    exact ⟨object, name, _, _, hbehind, ⟨hobject, rfl⟩, ⟨hname, rfl⟩, rfl⟩

theorem fitsAmong_patterns_eq_nil_iff {found : Node} :
    fitsAmong [form.objectPattern, form.namePattern] found.children = [] ↔
      ∀ object name, ¬ form.Names found object name := by
  rw [List.eq_nil_iff_forall_not_mem]
  simp only [mem_fitsAmong_patterns]
  constructor
  · intro hnone object name hnames
    exact hnone _ ⟨object, name, hnames, rfl⟩
  · rintro hnone _ ⟨object, name, hnames, -⟩
    exact hnone object name hnames

end MemberForm

namespace CallForm

variable (form : CallForm)

def query : Query :=
  [plainCall form.call, memberCall form.call form.member form.objectPattern form.namePattern]

theorem mem_fits_plainCall {kind : String} {call : Node} {captures : List Capture} :
    captures ∈ (plainCall kind).pattern.fits call ↔
      ∃ callee, call.IsKind kind ∧ call.HasChild "function" callee ∧ callee.IsKind "identifier" ∧
        captures = callCaptures call callee none := by
  rw [plainCall, rule, Catalog.kind, mem_fits_capture]
  simp only [mem_fits_kind, mem_fitsAmong_single (isOptional_field ..), mem_fits_field,
    mem_fits_capture, mem_fits_ofKind]
  constructor
  · rintro ⟨_, ⟨hcall, callee, hmem, hfield, _, ⟨hkind, rfl⟩, rfl⟩, rfl⟩
    exact ⟨callee, hcall, ⟨hmem, hfield⟩, hkind, rfl⟩
  · rintro ⟨callee, hcall, ⟨hmem, hfield⟩, hkind, rfl⟩
    exact ⟨_, ⟨hcall, callee, hmem, hfield, _, ⟨hkind, rfl⟩, rfl⟩, rfl⟩

theorem mem_fits_memberCall {call : Node} {captures : List Capture} :
    captures ∈ (memberCall form.call form.member form.objectPattern
        form.namePattern).pattern.fits call ↔
      ∃ member object callee, call.IsKind form.call ∧ call.HasChild "function" member ∧
        member.IsKind form.member ∧ form.Names member object callee ∧
        captures = callCaptures call callee (some object) := by
  rw [memberCall, rule, Catalog.kind, Catalog.kind, mem_fits_capture]
  simp only [mem_fits_kind, mem_fitsAmong_single (isOptional_field ..), mem_fits_field,
    MemberForm.mem_fitsAmong_patterns]
  constructor
  · rintro ⟨_, ⟨hcall, member, hmem, hfield, hkind, object, callee, hnames, rfl⟩, rfl⟩
    exact ⟨member, object, callee, hcall, ⟨hmem, hfield⟩, hkind, hnames, rfl⟩
  · rintro ⟨member, object, callee, hcall, ⟨hmem, hfield⟩, hkind, hnames, rfl⟩
    exact ⟨_, ⟨hcall, member, hmem, hfield, hkind, object, callee, hnames, rfl⟩, rfl⟩

theorem exists_fits_iff_calls {call : Node} {captures : List Capture} :
    (∃ rule ∈ form.query, captures ∈ rule.pattern.fits call) ↔
      ∃ callee object, form.Calls call callee object ∧
        captures = callCaptures call callee object := by
  simp only [query, List.mem_cons, List.not_mem_nil, or_false, exists_eq_or_imp, exists_eq_left,
    mem_fits_plainCall, mem_fits_memberCall]
  constructor
  · rintro (⟨callee, hcall, hcallee, hkind, hcaptures⟩ |
      ⟨member, object, callee, hcall, hmember, hkind, hnames, hcaptures⟩)
    · exact ⟨callee, none, .plain hcall hcallee hkind, hcaptures⟩
    · exact ⟨callee, some object, .member hcall hmember hkind hnames, hcaptures⟩
  · rintro ⟨callee, object, hcalls, hcaptures⟩
    cases hcalls with
    | plain hcall hcallee hkind => exact Or.inl ⟨callee, hcall, hcallee, hkind, hcaptures⟩
    | member hcall hmember hkind hnames =>
        exact Or.inr ⟨_, _, callee, hcall, hmember, hkind, hnames, hcaptures⟩

theorem rules_apart (hform : form.member ≠ "identifier") {call : Node}
    (hfields : call.DistinctFields) :
    (plainCall form.call).pattern.fits call = [] ∨
      (memberCall form.call form.member form.objectPattern
        form.namePattern).pattern.fits call = [] := by
  by_contra hboth
  rw [not_or] at hboth
  obtain ⟨_, hplain⟩ := List.exists_mem_of_ne_nil _ hboth.1
  obtain ⟨_, hmembers⟩ := List.exists_mem_of_ne_nil _ hboth.2
  obtain ⟨callee, hcall, hcallee, hidentifier, -⟩ := mem_fits_plainCall.mp hplain
  obtain ⟨member, _, _, hcall', hmember, hkind, hnames, -⟩ := form.mem_fits_memberCall.mp hmembers
  have hsame := Calls.unique hform hfields (.plain hcall hcallee hidentifier)
    (.member hcall' hmember hkind hnames)
  exact absurd hsame.2 (Option.some_ne_none _).symm

end CallForm

namespace Language

variable {language : Language} {document : Document}

theorem query_calls {form : CallForm} (hform : language.callForm? = some form) :
    language.query .calls = form.query := by
  cases language <;> cases hform <;> rfl

theorem eq_java_of_callForm? (hform : language.callForm? = none) : language = .java := by
  cases language <;> first | rfl | cases hform

-- An invocation on an object leaves no room for the same name without an object, as its name
-- is one node.
theorem exists_fits_iff_invokes {call : Node} {captures : List Capture}
    (hfields : call.DistinctFields) :
    (∃ rule ∈ Language.java.query .calls, captures ∈ rule.pattern.fits call) ↔
      ∃ callee object, Invokes call callee object ∧ captures = callCaptures call callee object := by
  have hquery : Language.java.query .calls = [rule (capture "method.call"
      (node (.kind "method_invocation")
        [optional invokedMember.objectPattern, invokedMember.namePattern]))] := rfl
  have hobject : invokedMember.objectPattern.isOptional = false := isOptional_field ..
  have hname : invokedMember.namePattern.isOptional = false := isOptional_field ..
  rw [hquery]
  simp only [List.mem_singleton, exists_eq_left, rule, mem_fits_capture, mem_fits_kind,
    fitsAmong_optional _ _ hobject]
  constructor
  · rintro ⟨inner, ⟨hcall, hinner⟩, rfl⟩
    split at hinner
    · next hnil =>
      rw [MemberForm.fitsAmong_patterns_eq_nil_iff] at hnil
      obtain ⟨callee, hmem, hfits⟩ := (mem_fitsAmong_single hname).mp hinner
      obtain ⟨⟨hfield, hnamed, hkind⟩, rfl⟩ := (MemberForm.mem_fits_namePattern _).mp hfits
      have hidentifier : callee.kind = "identifier" := List.mem_singleton.mp hkind
      exact ⟨callee, none, .plain hcall ⟨hmem, hfield⟩ ⟨hnamed, hidentifier⟩
        fun object => hnil object callee, rfl⟩
    · obtain ⟨object, callee, hnames, rfl⟩ := (MemberForm.mem_fitsAmong_patterns _).mp hinner
      exact ⟨callee, some object, .member hcall hnames, rfl⟩
  · rintro ⟨callee, object, hinvokes, rfl⟩
    cases hinvokes with
    | plain hcall hcallee hkind hnone =>
        have hnil := invokedMember.fitsAmong_patterns_eq_nil_iff.mpr fun object other hnames => by
          obtain rfl := hfields.eq_of_hasChild hcallee hnames.hasName
          exact hnone object hnames
        have hfits := invokedMember.mem_fits_namePattern.mpr
          ⟨⟨hcallee.2, hkind.1, List.mem_singleton.mpr hkind.2⟩, rfl⟩
        rw [if_pos hnil]
        exact ⟨_, ⟨hcall, (mem_fitsAmong_single hname).mpr ⟨callee, hcallee.1, hfits⟩⟩, rfl⟩
    | member hcall hnames =>
        have hmem := invokedMember.mem_fitsAmong_patterns.mpr ⟨_, callee, hnames, rfl⟩
        rw [if_neg (List.ne_nil_of_mem hmem)]
        exact ⟨_, ⟨hcall, hmem⟩, rfl⟩

theorem exists_fits_iff_calls {call : Node} {captures : List Capture}
    (hfields : call.DistinctFields) :
    (∃ rule ∈ language.query .calls, captures ∈ rule.pattern.fits call) ↔
      ∃ callee object, language.Calls call callee object ∧
        captures = callCaptures call callee object := by
  cases hform : language.callForm? with
  | none =>
      obtain rfl := eq_java_of_callForm? hform
      exact exists_fits_iff_invokes hfields
  | some form =>
      simp only [query_calls hform, form.exists_fits_iff_calls, Calls, hform]

theorem calls_anchored (language : Language) :
    ∀ rule ∈ language.query .calls, rule.pattern.anchored = true := by
  cases language <;> decide

theorem calls_capture_root (language : Language) :
    ∀ found ∈ language.query .calls, ∃ pattern, found = rule (capture "method.call" pattern) := by
  intro found hfound
  cases hform : language.callForm? with
  | none =>
      obtain rfl := eq_java_of_callForm? hform
      obtain rfl := List.mem_singleton.mp hfound
      exact ⟨_, rfl⟩
  | some form =>
      rw [query_calls hform, CallForm.query, List.mem_pair] at hfound
      obtain rfl | rfl := hfound <;> exact ⟨_, rfl⟩

theorem mem_call_matches {call : Node} (hfields : call.DistinctFields) {captures : List Capture} :
    (∃ index, ⟨index, captures⟩ ∈ (language.query .calls).matchesAt document call) ↔
      ∃ callee object, language.Calls call callee object ∧
        captures = callCaptures call callee object := by
  rw [← exists_fits_iff_calls hfields]
  simp only [Query.mem_matchesAt]
  constructor
  · rintro ⟨index, rule, hrule, hfits, -⟩
    exact ⟨rule, List.mem_of_getElem? hrule, hfits⟩
  · rintro ⟨rule, hrule, hfits⟩
    obtain ⟨pattern, rfl⟩ := calls_capture_root language rule hrule
    obtain ⟨index, hindex⟩ := List.mem_iff_getElem?.mp hrule
    exact ⟨index, _, hindex, hfits, rfl⟩

theorem call_matches_length_le_one {call : Node} (hfields : call.DistinctFields) :
    ((language.query .calls).matchesAt document call).length ≤ 1 := by
  refine Query.matchesAt_length_le_one ?_ ?_
  · intro rule hrule
    exact fits_length_le_one rule.pattern (calls_anchored language rule hrule) call hfields
  · cases hform : language.callForm? with
    | none =>
        obtain rfl := eq_java_of_callForm? hform
        exact List.pairwise_singleton _ _
    | some form =>
        rw [query_calls hform]
        exact List.pairwise_pair.mpr (form.rules_apart (callForm?_member hform) hfields)

theorem call_matches_ne_nil_iff {call : Node} (hfields : call.DistinctFields) :
    (language.query .calls).matchesAt document call ≠ [] ↔
      ∃ callee object, language.Calls call callee object := by
  constructor
  · intro hne
    obtain ⟨⟨index, captures⟩, hfound⟩ := List.exists_mem_of_ne_nil _ hne
    obtain ⟨callee, object, hcalls, -⟩ := (mem_call_matches hfields).mp ⟨index, hfound⟩
    exact ⟨callee, object, hcalls⟩
  · rintro ⟨callee, object, hcalls⟩
    obtain ⟨index, hfound⟩ := (mem_call_matches hfields).mpr ⟨callee, object, hcalls, rfl⟩
    exact List.ne_nil_of_mem hfound

theorem span_of_call_match {call : Node} (hwf : call.WellFormed) {found : Match}
    (hfound : found ∈ (language.query .calls).matchesAt document call) :
    found.span = call.span := by
  have hroot : ∀ rule ∈ language.query .calls,
      ∃ pattern, rule.pattern = capture "method.call" pattern := by
    intro rule hrule
    obtain ⟨pattern, rfl⟩ := calls_capture_root language rule hrule
    exact ⟨pattern, rfl⟩
  exact Query.span_of_root_capture hwf hroot hfound

end Language

-- Every call of a document is recorded once, with what it calls and on which object. The
-- records come by the starts of the calls, the longer call first, which is the order of the
-- tree unless a call is empty.
theorem calls_listed_once {language : Language} {document : Document}
    (hwf : document.root.WellFormed) (hfields : document.root.DistinctFields) :
    (∀ path call callee callee' object object',
      language.CallAt document path call callee object →
      language.CallAt document path call callee' object' → callee = callee' ∧ object = object') ∧
    ∃ order : List Path, order.Nodup ∧
      (∀ path, path ∈ order ↔
        ∃ call callee object, language.CallAt document path call callee object) ∧
      List.Forall₂ (fun path fact => ∃ call callee object,
          language.CallAt document path call callee object ∧
            fact = Call.ofParts document call callee object)
        order (Facts.gather (.builtIn language) document).calls ∧
      order.Pairwise document.root.Earlier ∧
      ((∀ path call callee object, language.CallAt document path call callee object →
          call.span.start < call.span.stop) → order.Pairwise (· < ·)) := by
  have hone (path : Path) (call : Node) (hcall : document.root.at? path = some call) :
      ((language.query .calls).matchesAt document call).length ≤ 1 :=
    Language.call_matches_length_le_one (hfields.below hcall)
  obtain ⟨order, hnodup, hmem, hfound, hearlier⟩ := Query.exists_order hone
    fun path call hcall found hfound => Language.span_of_call_match (hwf.below hcall) hfound
  have hcalls (path : Path) :
      path ∈ order ↔ ∃ call callee object, language.CallAt document path call callee object := by
    rw [hmem]
    refine exists_congr fun call => ?_
    simp only [Language.CallAt, exists_and_left]
    exact and_congr_right fun hcall => Language.call_matches_ne_nil_iff (hfields.below hcall)
  refine ⟨?_, order, hnodup, hcalls, ?_, hearlier, ?_⟩
  · rintro path call callee callee' object object' ⟨hcall, hcalls⟩ ⟨-, hcalls'⟩
    exact hcalls.unique (hfields.below hcall) hcalls'
  · change List.Forall₂ _ order
      (((language.query .calls).run document).map (Call.ofMatch document))
    refine List.forall₂_map_right_iff.mpr (hfound.imp ?_)
    rintro path ⟨index, captures⟩ ⟨call, hcall, hmatch⟩
    obtain ⟨callee, object, hcalls, rfl⟩ :=
      (Language.mem_call_matches (hfields.below hcall)).mp ⟨index, hmatch⟩
    exact ⟨call, callee, object, ⟨hcall, hcalls⟩, Call.ofMatch_callCaptures ..⟩
  · intro hwidth
    refine hearlier.imp_of_mem ?_
    intro path other hpath hother hbefore
    obtain ⟨call, _, _, hcall, _⟩ := (hcalls path).mp hpath
    obtain ⟨next, callee, object, hnext⟩ := (hcalls other).mp hother
    exact hwf.lt_of_earlier hcall hnext.1 (hwidth other next callee object hnext) hbefore

-- A call of a member of an object, with the dot at some place and one letter behind it.
def letter (dot : Nat) : Node :=
  .branch "property_identifier" (some "property") (dot + 1) (dot + 2) []

def letterCall (field : Option String) (object : Node) (dot : Nat) : Node :=
  .branch "call_expression" field 0 (dot + 4) [
    .branch "member_expression" (some "function") 0 (dot + 2) [
      object, .token "." dot (dot + 1), letter dot],
    .branch "arguments" (some "arguments") (dot + 2) (dot + 4) [
      .token "(" (dot + 2) (dot + 3), .token ")" (dot + 3) (dot + 4)]]

theorem letterCall_calls (field : Option String) {object : Node} (dot : Nat)
    (hfield : object.field = some "object") (hkind : object.kind ≠ "ERROR")
    (hnamed : object.named = true) :
    Language.javascript.Calls (letterCall field object dot) (letter dot) (some object) := by
  have hbehind : [object, letter dot].Sublist [object, .token "." dot (dot + 1), letter dot] :=
    .cons_cons _ (.cons _ (.cons_cons _ .slnil))
  exact .member ⟨rfl, rfl⟩ ⟨.head _, rfl⟩ ⟨rfl, rfl⟩
    ⟨hbehind, ⟨hfield, hkind, fun _ => hnamed⟩, rfl, rfl, .head _⟩

-- The two calls of `a.b().c()` start at the same place.
def innerCall : Node :=
  letterCall (some "object") (.branch "identifier" (some "object") 0 1 []) 1

def chainedCalls : Document where
  source := "a.b().c()"
  root := .branch "program" none 0 9 [letterCall none innerCall 5]

theorem chained_calls_listed_once :
    chainedCalls.root.WellFormed ∧ chainedCalls.root.DistinctFields ∧
      ∃ order : List Path, [0] ∈ order ∧ [0, 0, 0] ∈ order ∧ order.Pairwise (· < ·) ∧
        order.length = (Facts.gather (.builtIn .javascript) chainedCalls).calls.length := by
  have hwf : chainedCalls.root.WellFormed := by decide
  have hfields : chainedCalls.root.DistinctFields := by decide
  have hwidth : ∀ node ∈ chainedCalls.root.preorder, node.span.start < node.span.stop := by decide
  obtain ⟨-, order, -, hmem, hfacts, -, hsorted⟩ := @calls_listed_once .javascript _ hwf hfields
  have houter : Language.javascript.CallAt chainedCalls [0] _ _ _ :=
    ⟨rfl, letterCall_calls none 5 rfl (by decide) rfl⟩
  have hinner : Language.javascript.CallAt chainedCalls [0, 0, 0] _ _ _ :=
    ⟨rfl, letterCall_calls (some "object") 1 rfl (by decide) rfl⟩
  refine ⟨hwf, hfields, order, (hmem _).mpr ⟨_, _, _, houter⟩, (hmem _).mpr ⟨_, _, _, hinner⟩,
    hsorted ?_, hfacts.length_eq⟩
  rintro path call callee object ⟨hcall, -⟩
  exact hwidth call (Node.mem_preorder.mpr ⟨path, hcall⟩)

end ClassAtlas
