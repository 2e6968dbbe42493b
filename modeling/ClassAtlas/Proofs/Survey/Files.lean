import ClassAtlas.Proofs.Assembly
import ClassAtlas.Proofs.Atlas.Rounds
import ClassAtlas.Proofs.Tree.WellFormed
import ClassAtlas.Survey

namespace ClassAtlas

namespace SourceFile

-- A file is accepted when its language is known.
def accepted (file : SourceFile) : Bool :=
  (Language.ofId? file.language).isSome

-- The failure that is reported for a file that is not accepted.
def rejection (file : SourceFile) : Failure :=
  ⟨file.path, .unsupportedLanguage file.language, true⟩

-- A file is read in its language by the queries that are built in for it.
def ReadsAs (file : SourceFile) (extraction : Extraction) : Prop :=
  ∃ language root, Language.ofId? file.language = some language ∧ file.tree = some root ∧
    extraction = Extraction.ofDocument language (.builtIn language) file.path ⟨file.source, root⟩

theorem ReadsAs.path {file : SourceFile} {extraction : Extraction}
    (hreads : file.ReadsAs extraction) : extraction.entry.path = file.path := by
  obtain ⟨language, root, -, -, rfl⟩ := hreads
  rfl

-- All that can come out of an extraction.
theorem extract_cases (file : SourceFile) :
    (file.accepted = true ∧ ∃ extraction, file.ReadsAs extraction ∧ file.extract = .ok extraction) ∨
      (file.accepted = false ∧ file.extract = .error (.unsupportedLanguage file.language)) ∨
      (file.accepted = true ∧ file.tree = none ∧ file.extract = .error (.unparsed file.path)) := by
  unfold extract extractWith Language.resolve accepted
  cases hlanguage : Language.ofId? file.language with
  | none => exact Or.inr (Or.inl ⟨rfl, rfl⟩)
  | some language =>
      cases htree : file.tree with
      | none => exact Or.inr (Or.inr ⟨rfl, rfl, rfl⟩)
      | some root => exact Or.inl ⟨rfl, _, ⟨language, root, hlanguage, htree, rfl⟩, rfl⟩

theorem extract_of_rejected {file : SourceFile} (hfile : file.accepted = false) :
    file.extract = .error (.unsupportedLanguage file.language) := by
  obtain ⟨h, -⟩ | ⟨-, h⟩ | ⟨h, -⟩ := file.extract_cases
  · simp [hfile] at h
  · exact h
  · simp [hfile] at h

theorem extract_of_parsed {file : SourceFile} (hfile : file.accepted = true)
    (htree : file.tree.isSome = true) :
    ∃ extraction, file.ReadsAs extraction ∧ file.extract = .ok extraction := by
  obtain ⟨-, h⟩ | ⟨h, -⟩ | ⟨-, h, -⟩ := file.extract_cases
  · exact h
  · simp [hfile] at h
  · simp [h] at htree

end SourceFile

-- Nothing is linked in what an extraction finds.
theorem Extraction.bare_of_mem {language : Language} {book : RuleBook} {path : String}
    {document : Document} {entry : ClassEntry}
    (hentry : entry ∈ (ofDocument language book path document).entry.classes) :
    entry.bare = entry := by
  change entry ∈ (Facts.gather book document).classEntries language at hentry
  rw [Facts.classEntries_eq_mapIdx, List.mem_mapIdx] at hentry
  obtain ⟨owner, hlt, rfl⟩ := hentry
  simp [ClassEntry.bare, Facts.entryOf]

theorem RuleBook.query_error {book : RuleBook} {aspect : Aspect} {fault : Fault}
    (hfault : book.query aspect = .error fault) : ∃ reason, fault = book.fault aspect reason := by
  unfold query at hfault
  split at hfault
  · cases hfault
  · exact ⟨_, (Except.error.inj hfault).symm⟩
  · exact ⟨_, (Except.error.inj hfault).symm⟩

-- A query that cannot be run does not cost the file.
theorem Extraction.dropsFile_of_mem {language : Language} {book : RuleBook} {path : String}
    {document : Document} {fault : Fault}
    (hfault : fault ∈ (ofDocument language book path document).faults) :
    fault.dropsFile = false := by
  obtain ⟨aspect, -, haspect⟩ := List.mem_filterMap.mp hfault
  cases hquery : book.query aspect with
  | ok query => simp [fault?, hquery] at haspect
  | error found =>
      obtain ⟨reason, rfl⟩ := RuleBook.query_error hquery
      rw [fault?, hquery, Option.some_inj] at haspect
      rw [← haspect]
      rfl

namespace Survey

theorem results_eq_map (parallel : Bool) (files : List SourceFile) :
    results parallel files = files.map SourceFile.extract := by
  unfold results
  split
  · rw [List.map_map]
    rfl
  · rfl

-- Each file stands beside the result of its own extraction.
theorem zip_results (parallel : Bool) (files : List SourceFile) :
    files.zip (results parallel files) = files.map fun file => (file, file.extract) := by
  rw [results_eq_map, List.map_prod_left_eq_zip]

-- The entries of all files that can be read, before anything is linked.
def collected (files : List SourceFile) : Atlas :=
  ⟨files.filterMap fun file => kept? (file, file.extract)⟩

theorem linkIf_linkParents (wanted : Bool) (atlas : Atlas) :
    linkIf wanted Atlas.linkParents atlas =
      (atlas.linkedRounds wanted 0, if wanted then atlas.linkParents.2 else 0) := by
  cases wanted with
  | false => simp [linkIf, Atlas.linkedRounds_zero]
  | true =>
      have hlink := atlas.link_parents_linkedRounds false 0
      rw [Atlas.linkedRounds_zero] at hlink
      exact hlink

theorem linkIf_linkCalls (wanted : Bool) (atlas : Atlas) (parents : Bool) :
    linkIf wanted Atlas.linkCalls (atlas.linkedRounds parents 0) =
      (atlas.linkedRounds parents wanted.toNat, if wanted then atlas.linkCalls.2 else 0) := by
  cases wanted with
  | false => rfl
  | true => exact atlas.link_calls_linkedRounds parents 0

-- Everything in a report comes from the collected entries and the failures of the files.
theorem run_eq (settings : Settings) (files : List SourceFile) :
    run settings files =
      { atlas := (collected files).linkedRounds settings.linkParents settings.linkCalls.toNat
        failures := files.flatMap fun file => failures (file, file.extract)
        knownParents := if settings.linkParents then (collected files).linkParents.2 else 0
        linkedCalls := if settings.linkCalls then (collected files).linkCalls.2 else 0 } := by
  have hcollected : (⟨(files.map fun file => (file, file.extract)).filterMap kept?⟩ : Atlas) =
      collected files := by
    rw [List.filterMap_map]
    rfl
  simp only [run, zip_results, hcollected, linkIf_linkParents, linkIf_linkCalls,
    List.flatMap_map]

theorem collected_bare {files : List SourceFile} {entry : ClassEntry}
    (hentry : entry ∈ (collected files).classes) : entry.bare = entry := by
  obtain ⟨found, hfound, hclass⟩ := List.mem_flatMap.mp hentry
  obtain ⟨file, -, hfile⟩ := List.mem_filterMap.mp hfound
  obtain ⟨-, _, ⟨language, root, -, -, rfl⟩, hextract⟩ | ⟨-, hextract⟩ | ⟨-, -, hextract⟩ :=
    file.extract_cases
  · rw [hextract, kept?, Option.some_inj] at hfile
    rw [← hfile] at hclass
    exact Extraction.bare_of_mem hclass
  · simp [hextract, kept?] at hfile
  · simp [hextract, kept?] at hfile

-- What the failures of a file say is so: their path is that of the file, the flag belongs to the
-- fault, and a file is missing just when it is said to be skipped.
def Truthful (outcome : Outcome) : Prop :=
  ∀ failure ∈ failures outcome, failure.path = outcome.1.path ∧
    failure.skipped = failure.fault.dropsFile ∧
    (failure.skipped = true ↔ kept? outcome = none)

theorem truthful_ofDocument (file : SourceFile) (language : Language) (book : RuleBook)
    (document : Document) :
    Truthful (file, .ok (Extraction.ofDocument language book file.path document)) := by
  intro failure hfailure
  obtain ⟨fault, hfault, rfl⟩ := List.mem_map.mp hfailure
  refine ⟨rfl, (Extraction.dropsFile_of_mem hfault).symm, ?_⟩
  simp [kept?]

theorem truthful_error (file : SourceFile) {fault : Fault} (hfault : fault.dropsFile = true) :
    Truthful (file, .error fault) := by
  intro failure hfailure
  obtain rfl := List.mem_singleton.mp hfailure
  exact ⟨rfl, rfl, fun _ => rfl, fun _ => hfault⟩

theorem truthful_extract (file : SourceFile) : Truthful (file, file.extract) := by
  obtain ⟨-, _, ⟨language, root, -, -, rfl⟩, hextract⟩ | ⟨-, hextract⟩ | ⟨-, -, hextract⟩ :=
    file.extract_cases
  · rw [hextract]
    exact truthful_ofDocument file language _ _
  · rw [hextract]
    exact truthful_error file rfl
  · rw [hextract]
    exact truthful_error file rfl

-- A file that is not accepted adds its rejection to the report and nothing else.
theorem rejected_outcome {file : SourceFile} (hfile : file.accepted = false) :
    kept? (file, file.extract) = none ∧ failures (file, file.extract) = [file.rejection] := by
  rw [SourceFile.extract_of_rejected hfile]
  exact ⟨rfl, rfl⟩

theorem parsed_outcome {file : SourceFile} (hfile : file.accepted = true)
    (htree : file.tree.isSome = true) :
    ∃ extraction, file.ReadsAs extraction ∧
      kept? (file, file.extract) = some extraction.entry ∧ failures (file, file.extract) = [] := by
  obtain ⟨extraction, hreads, hextract⟩ := SourceFile.extract_of_parsed hfile htree
  refine ⟨extraction, hreads, by rw [hextract, kept?], ?_⟩
  obtain ⟨language, root, -, -, rfl⟩ := hreads
  rw [hextract]
  rfl

-- The parser has a tree for every file that is accepted.
def AllParsed (files : List SourceFile) : Prop :=
  ∀ file ∈ files, file.accepted = true → file.tree.isSome = true

instance (files : List SourceFile) : Decidable (AllParsed files) :=
  inferInstanceAs (Decidable (∀ file ∈ files, file.accepted = true → file.tree.isSome = true))

theorem collected_files {files : List SourceFile} (hparsed : AllParsed files) :
    List.Forall₂ (fun file entry => entry.path = file.path ∧
        ∃ extraction, file.ReadsAs extraction ∧ extraction.entry = entry)
      (files.filter (·.accepted)) (collected files).files := by
  induction files with
  | nil => exact .nil
  | cons file rest ih =>
      obtain ⟨hfile, hrest⟩ := List.forall_mem_cons.mp hparsed
      cases haccepted : file.accepted with
      | false =>
          have hfiles : collected (file :: rest) = collected rest := by
            simp [collected, (rejected_outcome haccepted).1]
          rw [List.filter_cons_of_neg (by simp [haccepted]), hfiles]
          exact ih hrest
      | true =>
          obtain ⟨extraction, hreads, hentry, -⟩ := parsed_outcome haccepted (hfile haccepted)
          have hfiles : (collected (file :: rest)).files =
              extraction.entry :: (collected rest).files := by
            simp [collected, hentry]
          rw [List.filter_cons_of_pos haccepted, hfiles]
          exact .cons ⟨hreads.path, extraction, hreads, rfl⟩ (ih hrest)

theorem failures_eq_rejections {files : List SourceFile} (hparsed : AllParsed files) :
    (files.flatMap fun file => failures (file, file.extract)) =
      (files.filter (!·.accepted)).map (·.rejection) := by
  induction files with
  | nil => rfl
  | cons file rest ih =>
      obtain ⟨hfile, hrest⟩ := List.forall_mem_cons.mp hparsed
      cases haccepted : file.accepted with
      | false =>
          have hfailures := (rejected_outcome haccepted).2
          simp [haccepted, hfailures, ih hrest]
      | true =>
          obtain ⟨_, -, -, hfailures⟩ := parsed_outcome haccepted (hfile haccepted)
          simp [haccepted, hfailures, ih hrest]

theorem skippedFiles_run (settings : Settings) {files : List SourceFile}
    (hparsed : AllParsed files) :
    (run settings files).skippedFiles = (files.filter (!·.accepted)).map (·.rejection) := by
  rw [Report.skippedFiles, run_eq, failures_eq_rejections hparsed]
  refine List.filter_eq_self.mpr fun failure hfailure => ?_
  obtain ⟨file, -, rfl⟩ := List.mem_map.mp hfailure
  rfl

theorem paths_run (settings : Settings) {files : List SourceFile} (hparsed : AllParsed files) :
    (run settings files).atlas.files.map (·.path) =
      (files.filter (·.accepted)).map (·.path) := by
  have hpaths : List.Forall₂ Eq ((files.filter (·.accepted)).map (·.path))
      ((collected files).files.map (·.path)) := by
    refine List.forall₂_map_left_iff.mpr (List.forall₂_map_right_iff.mpr ?_)
    exact (collected_files hparsed).imp fun file entry h => h.1.symm
  rw [List.forall₂_eq_eq_eq] at hpaths
  rw [run_eq, hpaths]
  exact Atlas.paths_mapClasses _ _

-- A file that is not accepted, wherever it stands, adds its rejection and changes nothing else.
theorem run_insert (settings : Settings) (before after : List SourceFile) {extra : SourceFile}
    (hextra : extra.accepted = false) :
    run settings (before ++ extra :: after) =
      { run settings (before ++ after) with
        failures := (run settings before).failures ++ extra.rejection ::
          (run settings after).failures } := by
  obtain ⟨hnone, hfailures⟩ := rejected_outcome hextra
  have hcollected : collected (before ++ extra :: after) = collected (before ++ after) := by
    simp [collected, hnone]
  simp only [run_eq, hcollected, List.flatMap_append, List.flatMap_cons, hfailures,
    List.singleton_append]

theorem failures_append (settings : Settings) (before after : List SourceFile) :
    (run settings (before ++ after)).failures =
      (run settings before).failures ++ (run settings after).failures := by
  simp only [run_eq, List.flatMap_append]

-- A survey divides its files: the atlas has those that are accepted, in order, and the others
-- are skipped, in order. What is reported for a file never says that it is kept when it is
-- missing, whatever queries it was read with. A file that is not accepted costs the other files
-- nothing.
theorem run_divides_files (settings : Settings) (files : List SourceFile)
    (hparsed : AllParsed files) :
    let report := run settings files
    List.Forall₂ (fun file entry => entry.path = file.path ∧
          ∃ extraction, file.ReadsAs extraction ∧ extraction.entry = entry)
        (files.filter (·.accepted)) report.atlas.bare.files ∧
      report.atlas.files.map (·.path) = (files.filter (·.accepted)).map (·.path) ∧
      report.skippedFiles = (files.filter (!·.accepted)).map (·.rejection) ∧
      report.atlas.files.length + report.skippedFiles.length = files.length ∧
      (report.failures = files.flatMap (fun file => failures (file, file.extract)) ∧
        (∀ file, Truthful (file, file.extract)) ∧
        ∀ file language book document,
          Truthful (file, .ok (Extraction.ofDocument language book file.path document))) ∧
      ∀ before after extra, files = before ++ after → extra.accepted = false →
        let wider := run settings (before ++ extra :: after)
        wider.atlas = report.atlas ∧ wider.knownParents = report.knownParents ∧
          wider.linkedCalls = report.linkedCalls ∧
          report.failures = (run settings before).failures ++ (run settings after).failures ∧
          wider.failures = (run settings before).failures ++ extra.rejection ::
            (run settings after).failures := by
  intro report
  have hbare : report.atlas.bare = collected files := by
    change (run settings files).atlas.bare = _
    rw [run_eq, Atlas.linkedRounds_bare, Atlas.bare_eq_self fun _ => collected_bare]
  have hpaths : report.atlas.files.map (·.path) = (files.filter (·.accepted)).map (·.path) :=
    paths_run settings hparsed
  have hskipped : report.skippedFiles = (files.filter (!·.accepted)).map (·.rejection) :=
    skippedFiles_run settings hparsed
  refine ⟨?_, hpaths, hskipped, ?_, ⟨?_, truthful_extract, truthful_ofDocument⟩, ?_⟩
  · rw [hbare]
    exact collected_files hparsed
  · have hlength := congrArg List.length hpaths
    rw [List.length_map, List.length_map] at hlength
    rw [hlength, hskipped, List.length_map]
    exact (List.length_eq_length_filter_add _).symm
  · exact congrArg Report.failures (run_eq settings files)
  · rintro before after extra rfl hextra
    rw [run_insert settings before after hextra]
    exact ⟨rfl, rfl, rfl, failures_append settings before after, rfl⟩

-- A class `A` with a method `m` that calls itself.
def selfCall : Node :=
  .branch "call_expression" none 16 24 [
    .branch "member_expression" (some "function") 16 22 [
      .branch "this" (some "object") 16 20 [],
      .token "." 20 21,
      .branch "property_identifier" (some "property") 21 22 []],
    .branch "arguments" (some "arguments") 22 24 [.token "(" 22 23, .token ")" 23 24]]

def selfCaller : SourceFile where
  path := "a.js"
  language := "js"
  source := "class A \x7b m() \x7b this.m() \x7d \x7d"
  tree := some (.branch "program" none 0 28 [
    .branch "class_declaration" none 0 28 [
      .token "class" 0 5,
      .branch "identifier" (some "name") 6 7 [],
      .branch "class_body" (some "body") 8 28 [
        .token "\x7b" 8 9,
        .branch "method_definition" none 10 26 [
          .branch "property_identifier" (some "name") 10 11 [],
          .branch "formal_parameters" (some "parameters") 11 13 [
            .token "(" 11 12, .token ")" 12 13],
          .branch "statement_block" (some "body") 14 26 [
            .token "\x7b" 14 15,
            .branch "expression_statement" none 16 24 [selfCall],
            .token "\x7d" 25 26]],
        .token "\x7d" 27 28]]])

def emptyModule : SourceFile := ⟨"b.py", "python", "", some (.branch "module" none 0 0 [])⟩

def unknownFile : SourceFile := ⟨"main.go", "go", "package main", none⟩

theorem unknownFile_divided :
    AllParsed [selfCaller, unknownFile, emptyModule] ∧
      (run .default [selfCaller, unknownFile, emptyModule]).atlas.files.map (·.path) =
        ["a.js", "b.py"] ∧
      (run .default [selfCaller, unknownFile, emptyModule]).skippedFiles =
        [⟨"main.go", .unsupportedLanguage "go", true⟩] ∧
      (run .default [selfCaller, unknownFile, emptyModule]).atlas =
        (run .default [selfCaller, emptyModule]).atlas := by
  have hparsed : AllParsed [selfCaller, unknownFile, emptyModule] := by decide
  obtain ⟨-, hpaths, hskipped, -⟩ := run_divides_files .default _ hparsed
  obtain ⟨-, -, -, -, -, hinsert⟩ :=
    run_divides_files .default [selfCaller, emptyModule] (by decide)
  obtain ⟨hatlas, -⟩ := hinsert [selfCaller] [emptyModule] unknownFile rfl (by decide)
  exact ⟨hparsed, hpaths, hskipped, hatlas⟩

end Survey

end ClassAtlas
