import ClassAtlas.Proofs.Atlas.Identity
import ClassAtlas.Proofs.Naming
import ClassAtlas.Proofs.Survey.Counts

namespace ClassAtlas

namespace SourceFile

-- A class of the file makes a call that has no receiver, in a language where such a call is
-- not meant for the class.
def CallsFree (file : SourceFile) (usage : Usage) : Prop :=
  ∃ language root, Language.ofId? file.language = some language ∧ file.tree = some root ∧
    language.callsOwnMethods = false ∧
    let facts := Facts.gather (.builtIn language) ⟨file.source, root⟩
    ∃ owner decl, facts.classes[owner]? = some decl ∧
      ∃ call ∈ facts.owned owner (·.offset) facts.calls,
        Scope.NoReceiver call.receiver ∧ usage = ⟨decl.name, call.name, ""⟩

theorem ReadsAs.extract {file : SourceFile} {extraction : Extraction}
    (hreads : file.ReadsAs extraction) : file.extract = .ok extraction := by
  obtain ⟨language, root, hlanguage, htree, rfl⟩ := hreads
  simp only [SourceFile.extract, extractWith, Language.resolve, hlanguage, htree]
  rfl

theorem kept?_eq_some_iff (file : SourceFile) (entry : FileEntry) :
    Survey.kept? (file, file.extract) = some entry ↔
      ∃ extraction, file.ReadsAs extraction ∧ extraction.entry = entry := by
  constructor
  · intro hentry
    obtain ⟨-, extraction, hreads, hextract⟩ | ⟨-, hextract⟩ | ⟨-, -, hextract⟩ :=
      file.extract_cases
    · rw [hextract] at hentry
      exact ⟨extraction, hreads, Option.some.inj hentry⟩
    · simp [hextract, Survey.kept?] at hentry
    · simp [hextract, Survey.kept?] at hentry
  · rintro ⟨extraction, hreads, rfl⟩
    rw [hreads.extract]
    rfl

-- For a class with a name, these are just the calls that are left without a type.
theorem callsFree_iff {file : SourceFile} {usage : Usage} (hcaller : usage.caller ≠ "") :
    file.CallsFree usage ↔
      (∃ extraction, file.ReadsAs extraction ∧
        ∃ entry ∈ extraction.entry.classes, usage ∈ entry.usages) ∧ usage.receiver = "" := by
  constructor
  · rintro ⟨language, root, hlanguage, htree, hfree, owner, decl, hdecl, call, hcall, hnone, rfl⟩
    let facts := Facts.gather (.builtIn language) ⟨file.source, root⟩
    refine ⟨⟨_, ⟨language, root, hlanguage, htree, rfl⟩, facts.entryOf language owner decl, ?_, ?_⟩,
      rfl⟩
    · apply List.mem_of_getElem? (i := owner)
      exact (facts.classEntries_getElem? language owner).trans (by rw [hdecl]; rfl)
    · apply List.mem_map.mpr
      refine ⟨call, hcall, ?_⟩
      rw [Facts.usageOf, Scope.receiverType_of_noReceiver hnone, Scope.implicitType, Facts.scope,
        hfree]
      rfl
  · rintro ⟨⟨_, ⟨language, root, hlanguage, htree, rfl⟩, entry, hentry, husage⟩, hreceiver⟩
    let facts := Facts.gather (.builtIn language) ⟨file.source, root⟩
    obtain ⟨owner, howner⟩ := List.mem_iff_getElem?.mp hentry
    have hlookup := (facts.classEntries_getElem? language owner).symm.trans howner
    obtain ⟨decl, hdecl, rfl⟩ := Option.map_eq_some_iff.mp hlookup
    obtain ⟨call, hcall, rfl⟩ := List.mem_map.mp husage
    have hfacts := Facts.wellNamed_gather (.builtIn language) ⟨file.source, root⟩
    have htyped := (hfacts.scope language owner decl).typed
    obtain ⟨hnone, hfree⟩ := (htyped.receiverType_eq_empty_iff hcaller _ _).mp hreceiver
    refine ⟨language, root, hlanguage, htree, hfree, owner, decl, hdecl, call, hcall, hnone, ?_⟩
    rw [Facts.usageOf, Usage.mk.injEq]
    exact ⟨rfl, rfl, hreceiver⟩

end SourceFile

namespace Atlas

-- Every declared method, by the names of its class and of itself.
def declared (atlas : Atlas) : List (String × String) :=
  atlas.classes.flatMap fun entry => entry.methods.map fun method => (entry.name, method.name)

theorem declared_bare (atlas : Atlas) : atlas.bare.declared = atlas.declared := by
  apply classes_flatMap_bare
  intro entry
  simp [ClassEntry.bare]

theorem exists_declares_iff_declared (atlas : Atlas) (key : String) :
    (∃ place, atlas.Declares place key) ↔
      ∃ method ∈ atlas.declared, methodName method.1 method.2 = key := by
  rw [exists_declares_iff]
  simp only [declared, List.mem_flatMap, List.mem_map]
  constructor
  · rintro ⟨entry, hentry, method, hmethod, hkey⟩
    exact ⟨(entry.name, method.name), ⟨entry, hentry, method, hmethod, rfl⟩, hkey⟩
  · rintro ⟨_, ⟨entry, hentry, method, hmethod, rfl⟩, hkey⟩
    exact ⟨entry, hentry, method, hmethod, hkey⟩

-- A method is declared under the very name that a call of a free function is looked up by: in a
-- class without a name, or in one whose name has a dot in front and goes on like the function's.
def TakesFree (atlas : Atlas) (function : String) : Prop :=
  ∃ method ∈ atlas.declared, (method.1 = "" ∧ method.2 = function) ∨
    ∃ rest, method.1 = "." ++ rest ∧ methodName rest method.2 = function

theorem methodName_eq_free_iff (owner name function : String) :
    methodName owner name = methodName "" function ↔
      (owner = "" ∧ name = function) ∨
        ∃ rest, owner = "." ++ rest ∧ methodName rest name = function := by
  simp only [← String.toList_inj, methodName_toList, String.toList_append, String.toList_empty,
    List.nil_append]
  cases howner : owner.toList with
  | nil => simp
  | cons c cs =>
      simp only [List.cons_append, List.cons.injEq, reduceCtorEq, false_and, false_or]
      constructor
      · rintro ⟨rfl, hrest⟩
        refine ⟨String.ofList cs, ?_, ?_⟩
        · simp
        · simpa using hrest
      · rintro ⟨rest, hrest, hname⟩
        obtain ⟨rfl, rfl⟩ : c = '.' ∧ cs = rest.toList := by simpa using hrest
        exact ⟨rfl, hname⟩

theorem takesFree_iff (atlas : Atlas) (function : String) :
    atlas.TakesFree function ↔ ∃ place, atlas.Declares place (methodName "" function) := by
  simp only [exists_declares_iff_declared, methodName_eq_free_iff, TakesFree]

-- Every class that declares a method has a name, and none has a dot in front.
def AllNamed (atlas : Atlas) : Prop :=
  ∀ method ∈ atlas.declared, method.1 ≠ "" ∧ ∀ rest, method.1 ≠ "." ++ rest

theorem allNamed_iff (atlas : Atlas) : atlas.AllNamed ↔ ∀ function, ¬ atlas.TakesFree function := by
  constructor
  · rintro hnamed function ⟨method, hmethod, ⟨hblank, -⟩ | ⟨rest, hdot, -⟩⟩
    · exact (hnamed method hmethod).1 hblank
    · exact (hnamed method hmethod).2 rest hdot
  · intro hnone method hmethod
    constructor
    · intro hblank
      exact hnone method.2 ⟨method, hmethod, Or.inl ⟨hblank, rfl⟩⟩
    · intro rest hdot
      exact hnone (methodName rest method.2) ⟨method, hmethod, Or.inr ⟨rest, hdot, rfl⟩⟩

theorem method?_free_eq_none_iff (atlas : Atlas) (function : String) :
    atlas.methodTable.method? "" function = none ↔ ¬ atlas.TakesFree function := by
  rw [takesFree_iff, ← methodTable_isSome_iff, Option.not_isSome_iff_eq_none]
  rfl

end Atlas

namespace Survey

variable {settings : Settings} {files : List SourceFile} {usage : Usage}

theorem mem_usages_collected :
    usage ∈ (collected files).usages ↔
      ∃ file ∈ files, ∃ extraction, file.ReadsAs extraction ∧
        ∃ entry ∈ extraction.entry.classes, usage ∈ entry.usages := by
  simp only [Atlas.usages, Atlas.classes, collected, List.mem_flatMap, List.mem_filterMap,
    SourceFile.kept?_eq_some_iff]
  constructor
  · rintro ⟨entry, ⟨_, ⟨file, hfile, extraction, hreads, rfl⟩, hentry⟩, husage⟩
    exact ⟨file, hfile, extraction, hreads, entry, hentry, husage⟩
  · rintro ⟨file, hfile, extraction, hreads, entry, hentry, husage⟩
    exact ⟨entry, ⟨_, ⟨file, hfile, extraction, hreads, rfl⟩, hentry⟩, husage⟩

-- The callers in a report are the usages that can be linked, if that is asked for.
theorem mem_callers_run :
    usage ∈ (run settings files).atlas.callers ↔
      settings.linkCalls = true ∧ usage ∈ (collected files).usages ∧
        (collected files).Linkable usage := by
  cases hcalls : settings.linkCalls with
  | false =>
      simp only [Bool.false_eq_true, false_and, iff_false, Atlas.callers, List.mem_flatMap,
        not_exists, not_and]
      intro entry hentry method hmethod
      rw [run_eq, hcalls] at hentry
      rw [Atlas.unset_linkedRounds_zero (fun _ => collected_bare) hentry hmethod]
      exact List.not_mem_nil
  | true => simp [(callers_run_perm hcalls).mem_iff]

theorem declared_run : (run settings files).atlas.declared = (collected files).declared := by
  rw [run_eq, ← Atlas.declared_bare, Atlas.linkedRounds_bare, Atlas.declared_bare]

theorem takesFree_run (function : String) :
    (run settings files).atlas.TakesFree function ↔ (collected files).TakesFree function := by
  rw [Atlas.TakesFree, declared_run, Atlas.TakesFree]

theorem free_call_mem_callers_iff :
    usage ∈ (run settings files).atlas.callers ∧ usage.receiver = "" ↔
      settings.linkCalls = true ∧ (∃ file ∈ files, file.CallsFree usage) ∧ usage.caller ≠ "" ∧
        usage.method ≠ "" ∧ (run settings files).atlas.TakesFree usage.method := by
  rw [mem_callers_run, mem_usages_collected, takesFree_run, Atlas.takesFree_iff]
  constructor
  · rintro ⟨⟨hcalls, ⟨file, hfile, hread⟩, hcaller, hmethod, hdeclared⟩, hreceiver⟩
    rw [hreceiver] at hdeclared
    have hfree := (SourceFile.callsFree_iff hcaller).mpr ⟨hread, hreceiver⟩
    exact ⟨hcalls, ⟨file, hfile, hfree⟩, hcaller, hmethod, hdeclared⟩
  · rintro ⟨hcalls, ⟨file, hfile, hfree⟩, hcaller, hmethod, hdeclared⟩
    obtain ⟨hread, hreceiver⟩ := (SourceFile.callsFree_iff hcaller).mp hfree
    rw [← hreceiver] at hdeclared
    exact ⟨⟨hcalls, ⟨file, hfile, hread⟩, hcaller, hmethod, hdeclared⟩, hreceiver⟩

-- When a call of a free function is recorded as a call of a method. It is looked up like a method
-- of a class without a name, so that it needs such a class, or one whose name starts with a dot, in
-- any file and in any language. Where every class has a proper name, no such call is recorded.
theorem free_calls_recorded_iff (settings : Settings) (files : List SourceFile) :
    let report := run settings files
    (∀ usage : Usage, usage ∈ report.atlas.callers ∧ usage.receiver = "" ↔
        settings.linkCalls = true ∧ (∃ file ∈ files, file.CallsFree usage) ∧ usage.caller ≠ "" ∧
          usage.method ≠ "" ∧ report.atlas.TakesFree usage.method) ∧
      ((∀ function, report.atlas.methodTable.method? "" function = none) ↔
        report.atlas.AllNamed) ∧
      (report.atlas.AllNamed → ∀ usage ∈ report.atlas.callers, usage.receiver ≠ "") := by
  intro report
  refine ⟨fun usage => free_call_mem_callers_iff, ?_, ?_⟩
  · simp only [Atlas.method?_free_eq_none_iff, Atlas.allNamed_iff]
  · intro hnamed usage husage hreceiver
    obtain ⟨-, -, -, -, hfree⟩ := free_call_mem_callers_iff.mp ⟨husage, hreceiver⟩
    exact report.atlas.allNamed_iff.mp hnamed usage.method hfree

-- A class `B` with a class in it that lost its name to a repaired error, and has a method `f`.
def namelessDocument : Document where
  source := "class B \x7b class \x7b void f() \x7b \x7d \x7d \x7d"
  root := .branch "compilation_unit" none 0 34 [
    .branch "class_declaration" none 0 34 [
      .token "class" 0 5,
      .branch "identifier" (some "name") 6 7 [],
      .branch "declaration_list" (some "body") 8 34 [
        .token "\x7b" 8 9,
        .branch "class_declaration" none 10 32 [
          .token "class" 10 15,
          .branch "identifier" (some "name") 15 15 [],
          .branch "declaration_list" (some "body") 16 32 [
            .token "\x7b" 16 17,
            .branch "method_declaration" none 18 30 [
              .branch "predefined_type" (some "returns") 18 22 [],
              .branch "identifier" (some "name") 23 24 [],
              .branch "parameter_list" (some "parameters") 24 26 [
                .token "(" 24 25, .token ")" 25 26],
              .branch "block" (some "body") 27 30 [.token "\x7b" 27 28, .token "\x7d" 29 30]],
            .token "\x7d" 31 32]],
        .token "\x7d" 33 34]]]

def namelessClass : SourceFile :=
  ⟨"b.cs", "csharp", namelessDocument.source, some namelessDocument.root⟩

theorem namelessClass_entry :
    kept? (namelessClass, namelessClass.extract) =
      some ⟨"b.cs", [⟨"B", [], none, [], []⟩, ⟨"", [], none, [⟨"f", none⟩], []⟩]⟩ := by
  have hclasses : (RuleBook.builtIn .csharp).hits .classes namelessDocument =
      (RuleBook.builtIn .csharp).unsorted .classes namelessDocument :=
    RuleBook.hits_of_sorted (by decide +kernel)
  rw [SourceFile.kept?_eq_some_iff]
  refine ⟨Extraction.ofDocument .csharp (.builtIn .csharp) "b.cs" namelessDocument,
    ⟨.csharp, namelessDocument.root, rfl, rfl, rfl⟩, ?_⟩
  rw [Extraction.ofDocument, Facts.gather_eq, hclasses]
  decide +kernel

-- A class `A` with a call of a function `f`.
def freeCaller : SourceFile where
  path := "a.js"
  language := "javascript"
  source := "class A \x7b run() \x7b f(); \x7d \x7d"
  tree := some (.branch "program" none 0 26 [
    .branch "class_declaration" none 0 26 [
      .token "class" 0 5,
      .branch "identifier" (some "name") 6 7 [],
      .branch "class_body" (some "body") 8 26 [
        .token "\x7b" 8 9,
        .branch "method_definition" (some "member") 10 24 [
          .branch "property_identifier" (some "name") 10 13 [],
          .branch "formal_parameters" (some "parameters") 13 15 [
            .token "(" 13 14, .token ")" 14 15],
          .branch "statement_block" (some "body") 16 24 [
            .token "\x7b" 16 17,
            .branch "expression_statement" none 18 22 [
              .branch "call_expression" none 18 21 [
                .branch "identifier" (some "function") 18 19 [],
                .branch "arguments" (some "arguments") 19 21 [
                  .token "(" 19 20, .token ")" 20 21]],
              .token ";" 21 22],
            .token "\x7d" 23 24]],
        .token "\x7d" 25 26]]])

theorem namelessClass_takes_free_call :
    let report := run .default [namelessClass, freeCaller]
    report.atlas.callers = [⟨"A", "f", ""⟩] ∧ report.linkedCalls = 1 ∧
      freeCaller.CallsFree ⟨"A", "f", ""⟩ ∧ ¬ report.atlas.AllNamed := by
  intro report
  have hcaller : kept? (freeCaller, freeCaller.extract) =
      some ⟨"a.js", [⟨"A", [], none, [⟨"run", none⟩], [⟨"A", "f", ""⟩]⟩]⟩ := by
    decide +kernel
  have hcollected : collected [namelessClass, freeCaller] =
      ⟨[⟨"b.cs", [⟨"B", [], none, [], []⟩, ⟨"", [], none, [⟨"f", none⟩], []⟩]⟩,
        ⟨"a.js", [⟨"A", [], none, [⟨"run", none⟩], [⟨"A", "f", ""⟩]⟩]⟩]⟩ := by
    simp [collected, namelessClass_entry, hcaller]
  have hlinkable : (collected [namelessClass, freeCaller]).Linkable ⟨"A", "f", ""⟩ := by
    refine ⟨by decide, by decide, (Atlas.takesFree_iff _ _).mp ⟨("", "f"), ?_, Or.inl ⟨rfl, rfl⟩⟩⟩
    simp [hcollected, Atlas.declared, Atlas.classes]
  have hcallers : report.atlas.callers = [⟨"A", "f", ""⟩] := by
    have husages : (collected [namelessClass, freeCaller]).usages = [⟨"A", "f", ""⟩] := by
      rw [hcollected]
      rfl
    have hperm : report.atlas.callers.Perm _ := callers_run_perm rfl
    rw [husages, List.filter_cons_of_pos (by simpa using hlinkable), List.filter_nil] at hperm
    exact List.perm_singleton.mp hperm
  have hcount : report.linkedCalls = report.atlas.callers.length := (linkedCalls_run rfl).1
  refine ⟨hcallers, by rw [hcount, hcallers]; rfl, ?_, ?_⟩
  · obtain ⟨extraction, hreads, hentry⟩ := (freeCaller.kept?_eq_some_iff _).mp hcaller
    apply (SourceFile.callsFree_iff (by decide)).mpr
    refine ⟨⟨extraction, hreads, ?_⟩, rfl⟩
    rw [hentry]
    exact ⟨_, List.mem_singleton_self _, List.mem_singleton_self _⟩
  · intro hnamed
    have hmem : ("", "f") ∈ report.atlas.declared := by
      rw [declared_run, hcollected]
      simp [Atlas.declared, Atlas.classes]
    exact (hnamed ("", "f") hmem).1 rfl

end Survey

end ClassAtlas
