/-
This file defines the findings of an analysis: where they are, how serious they are, and the order
in which a run lists them.
-/

import PhpAudit.Syntax.Span
import PhpAudit.Text.Lines

namespace PhpAudit

/-- How serious an issue is. -/
inductive Severity where
  | error
  | warning
  | notice
  | information
deriving DecidableEq, Inhabited, Repr

namespace Severity

/-- The word in the text report. -/
def label : Severity → String
  | error => "ERROR"
  | warning => "WARNING"
  | notice => "NOTICE"
  | information => "INFO"

/-- The word in the structured report. -/
def tag : Severity → String
  | error => "error"
  | warning => "warning"
  | notice => "notice"
  | information => "information"

end Severity

/-- One finding; the line counts from 1, the characters within it from 0. -/
structure Issue where
  check : String
  severity : Severity
  message : String
  file : String
  line : Nat := 1
  startChar : Nat := 0
  endChar : Nat := 0
deriving DecidableEq, Inhabited, Repr

namespace Issue

/-- Places an issue; it never ends before it starts. -/
def locate (issue : Issue) (line startChar endChar : Nat) : Issue :=
  { issue with line, startChar, endChar := max endChar startChar }

def isError (issue : Issue) : Bool :=
  issue.severity == .error

/-- Order by file, line and first character. -/
def le (first second : Issue) : Bool :=
  first.file < second.file ||
    (first.file == second.file &&
      (first.line < second.line ||
        (first.line == second.line && first.startChar ≤ second.startChar)))

/-- Order by line and first character, within one file. -/
def placeLe (first second : Issue) : Bool :=
  first.line < second.line || (first.line == second.line && first.startChar ≤ second.startChar)

/-- The issues of a run by file, line and first character; equals keep their order. -/
def sort (issues : List Issue) : List Issue :=
  issues.mergeSort le

/-- The issues of one file by line and first character; equals keep their order. -/
def sortInFile (issues : List Issue) : List Issue :=
  issues.mergeSort placeLe

def count (severity : Severity) (issues : List Issue) : Nat :=
  issues.countP (·.severity == severity)

end Issue

/-- A source file under analysis. -/
structure Source where
  name : String
  lines : Text.Lines
deriving Inhabited

namespace Source

def of (name text : String) : Source :=
  ⟨name, .of text⟩

def text (source : Source) : String :=
  source.lines.text

/-- The 1-based line of a byte offset. -/
def line (source : Source) (offset : Nat) : Nat :=
  source.lines.line offset

/-- The text of a range, if its ends are character boundaries. -/
def slice? (source : Source) (span : Span) : Option String :=
  Text.slice? source.text span.start span.stop

/-- An issue at a range; a range of several lines is clipped to its first line. -/
def issueAt (source : Source) (span : Span) (severity : Severity) (check message : String) :
    Issue :=
  let line := source.line span.start
  let startChar := source.lines.column span.start - 1
  let endChar :=
    if source.line span.stop == line then source.lines.column span.stop - 1
    else source.lines.lengths.getD (line - 1) startChar
  Issue.locate { check, severity, message, file := source.name } line startChar endChar

end Source

/-- The issues found in a file so far; a silent report drops what it is given. -/
structure Report where
  enabled : Bool
  issues : List Issue := []
deriving DecidableEq, Inhabited

namespace Report

def add (report : Report) (source : Source) (span : Span) (severity : Severity)
    (check message : String) : Report :=
  if report.enabled then
    { report with issues := report.issues ++ [source.issueAt span severity check message] }
  else
    report

end Report

end PhpAudit
