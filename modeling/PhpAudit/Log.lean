/-
This file defines the debug log: the events of a run, and the lines that each of them is written as.
-/

import PhpAudit.Document

namespace PhpAudit

/-- Something worth a note in the debug log. -/
inductive LogEntry where
  | loadingConfig (path : String)
  | settings (excludes workers byteBudget : Nat) (unusedVar : String)
  /-- The symbols of a file that is no longer part of the project are dropped -/
  | retracting (file : String)
  | phaseStarted (phase : Phase) (files : Nat)
  /-- Other files wait for this one, because the bytes in flight are more than the budget -/
  | overBudget (file : String) (inFlight size : Nat)
  | fileFailed (file reason : String)
  | phaseDone (phase : Phase) (files issues : Nat)
  | indexed (stats : IndexStats)
deriving DecidableEq, Inhabited, Repr

namespace LogEntry

/-- A title between two rules. -/
def titled (rule title : String) : List String :=
  [rule, title, rule]

def heading (title : String) : List String :=
  titled (Text.copies 60 '=') title

def subheading (title : String) : List String :=
  titled (Text.copies 40 '-') title

/-- The lines of an entry, without the time that each of them starts with. -/
def lines : LogEntry → List String
  | loadingConfig path => heading "CONFIGURATION LOADING" ++ [s!"Loading config from: {path}"]
  | settings excludes workers byteBudget unusedVar =>
    heading "CONFIGURATION SUMMARY" ++
      [s!"Exclude patterns: {excludes}", s!"Worker threads: {workers}",
        s!"Byte budget: {byteBudget}", s!"Unused variable pattern: {unusedVar}"]
  | retracting file => [s!"Retracting symbols of {file}"]
  | phaseStarted phase files =>
    heading (Text.upper phase.name ++ " START") ++ [s!"Processing {files} files"]
  | overBudget file inFlight size =>
    ["Limiting concurrency to save memory: " ++ file ++
      s!" waits ({inFlight} bytes in flight, {size} requested)"]
  | fileFailed file reason => [s!"FAILED to analyze {file}: {reason}"]
  | phaseDone phase files issues =>
    subheading (Text.upper phase.name ++ " COMPLETE") ++
      [s!"Files processed: {files}", s!"Diagnostics: {issues}"]
  | indexed stats =>
    subheading "SYMBOL INDEX" ++
      [s!"Files: {stats.files}", s!"Classes: {stats.classes}", s!"Traits: {stats.traits}",
        s!"Functions: {stats.functions}", s!"Constants: {stats.constants}"]

end LogEntry

end PhpAudit
