import ClassAtlas.Atlas.Form
import ClassAtlas.Atlas.Link
import ClassAtlas.Extraction
import ClassAtlas.Settings

namespace ClassAtlas

-- What went wrong with a file, and whether the file is therefore not in the atlas.
structure Failure where
  path : String
  fault : Fault
  skipped : Bool
  deriving DecidableEq

-- The linked atlas, the failures on the way, and how much was linked.
structure Report where
  atlas : Atlas
  failures : List Failure
  knownParents : Nat
  linkedCalls : Nat

namespace Survey

-- A file with the outcome of its extraction.
abbrev Outcome := SourceFile × Except Fault Extraction

-- The results come in the order of the files, no matter which task is done first. That much is
-- taken from the way in which tasks are collected, and nothing else of how they run.
def results (parallel : Bool) (files : List SourceFile) : List (Except Fault Extraction) :=
  if parallel then
    let tasks := files.map fun file => Task.spawn fun _ => file.extract
    tasks.map Task.get
  else files.map SourceFile.extract

def kept? (outcome : Outcome) : Option FileEntry :=
  match outcome.2 with
  | .ok extraction => some extraction.entry
  | .error _ => none

def failures (outcome : Outcome) : List Failure :=
  match outcome.2 with
  | .ok extraction =>
      extraction.faults.map fun fault => ⟨outcome.1.path, fault, false⟩
  | .error fault => [⟨outcome.1.path, fault, fault.dropsFile⟩]

-- Runs a linking step if it is asked for.
def linkIf (wanted : Bool) (link : Atlas → Atlas × Nat) (atlas : Atlas) : Atlas × Nat :=
  if wanted then link atlas else (atlas, 0)

-- Surveys files in the order in which they are given. A file that fails leaves the others
-- as they are.
def run (settings : Settings) (files : List SourceFile) : Report :=
  let outcomes : List Outcome := files.zip (results settings.parallel files)
  let collected : Atlas := ⟨outcomes.filterMap kept?⟩
  let parents := linkIf settings.linkParents Atlas.linkParents collected
  let calls := linkIf settings.linkCalls Atlas.linkCalls parents.1
  { atlas := calls.1
    failures := outcomes.flatMap failures
    knownParents := parents.2
    linkedCalls := calls.2 }

end Survey

namespace Report

def skippedFiles (report : Report) : List Failure :=
  report.failures.filter (·.skipped)

def failureJson (failure : Failure) : Json :=
  .object [("path", .string failure.path), ("error", .string failure.fault.message),
    ("skipped", .bool failure.skipped)]

def toJson (report : Report) : Json :=
  .object [("project", report.atlas.toJson),
    ("failures", .array (report.failures.map failureJson)),
    ("resolvedParents", .nat report.knownParents),
    ("linkedUsages", .nat report.linkedCalls)]

end Report

end ClassAtlas
