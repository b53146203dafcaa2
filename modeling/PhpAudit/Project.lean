/-
This file analyzes all files of a project. A run drops the files that are gone, indexes the files
that are given, freezes the index and collects the issues. The index outlives the run, so a later
run over fewer files starts from it.
-/

import PhpAudit.Budget
import PhpAudit.Config
import PhpAudit.Log
import PhpAudit.Symbol.Builtin

namespace PhpAudit

/-- A file that a run is given: its document, or why it cannot be read. -/
structure Input where
  name : String
  content : Except String Document

namespace Input

/-- A file that was read. -/
def ofText (name text : String) : Input where
  name
  content := .ok (.ofText name text)

/-- The complaint about a file that cannot be read. -/
def complaint (input : Input) (reason : String) : String :=
  s!"Failed to read {input.name}: {reason}"

end Input

/-- A project: its settings and what is known of its symbols. -/
structure Project where
  config : Config
  options : Options
  index : Index

namespace Project

/-- A project of which only the builtin symbols are known. -/
def ofConfig (config : Config) : Except ConfigError Project := do
  return { config, options := ← config.options, index := Builtin.index }

/-! ### One phase -/

/-- What a phase has come to: the index, the issues so far, and notes for the log. -/
structure Progress where
  index : Index
  issues : List Issue := []
  /-- Files that went over the budget, in order -/
  crowded : List LogEntry := []
  /-- Files that could not be read, in order -/
  failed : List LogEntry := []

/-- The note about a file that is over the budget by itself; files go through one at a time. -/
def crowding (limit : Nat) (document : Document) : List LogEntry :=
  match ({ limit } : Budget).acquire? document.size with
  | some budget =>
    if budget.isExceeded then
      [.overBudget document.name budget.inFlight document.size]
    else
      []
  | none => []

/-- Takes one file through a phase. A file that cannot be read is an issue when issues are reported. -/
def advance (project : Project) (phase : Phase) (progress : Progress) (input : Input) :
    Except IndexError Progress :=
  match input.content with
  | .ok document => do
    let (index, result) ← document.analyze progress.index project.options phase
    return { progress with
      index
      issues := progress.issues ++ result.issues
      crowded := progress.crowded ++ crowding project.config.byteBudget document }
  | .error reason =>
    let message := input.complaint reason
    let issue : Issue := { check := "io", severity := .error, message, file := input.name }
    .ok { progress with
      issues := if phase.isReporting then progress.issues ++ [issue] else progress.issues
      failed := progress.failed ++ [.fileFailed input.name message] }

/-- Takes all files through a phase. -/
def runPhase (project : Project) (phase : Phase) (inputs : List Input) :
    Except IndexError (Progress × List LogEntry) := do
  let progress ← inputs.foldlM (project.advance phase) { index := project.index }
  let log :=
    [.phaseStarted phase inputs.length] ++ progress.crowded ++ progress.failed ++
      [.phaseDone phase inputs.length progress.issues.length]
  return (progress, log)

/-! ### A whole run -/

/-- The indexed files that a run is not given; the builtin symbols always stay. -/
def missing (project : Project) (inputs : List Input) : List String :=
  let given := inputs.map (·.name)
  project.index.fileNames.filter fun file => file != builtinFile && !given.contains file

/-- What a run leaves behind. -/
structure Run where
  project : Project
  issues : List Issue
  log : List LogEntry

/-- Analyzes the files that are given, and forgets those that are not. -/
def run (project : Project) (inputs : List Input) : Except IndexError Run := do
  let missing := project.missing inputs
  let kept ← missing.foldlM Index.deleteFile (project.index.setComplete false)
  let (indexing, indexingLog) ← runPhase { project with index := kept } .indexing inputs
  let complete := { project with index := indexing.index.setComplete true }
  let (reporting, reportingLog) ← complete.runPhase .reporting inputs
  return {
    project := complete
    issues := Issue.sort reporting.issues
    log := missing.map LogEntry.retracting ++ indexingLog ++ [.indexed complete.index.stats] ++
      reportingLog }

end Project

end PhpAudit
