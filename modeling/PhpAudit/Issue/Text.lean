/-
This file writes issues for people: a headline, the line of the source, and a marker under the
characters in question.
-/

import PhpAudit.Issue

namespace PhpAudit

namespace Issue

/-- `text` with blanks after it up to a width. -/
def padded (width : Nat) (text : String) : String :=
  text ++ Text.copies (width - text.length) ' '

def headline (issue : Issue) : String :=
  let label := padded 7 issue.severity.label
  s!"{label} {issue.check}: {issue.message} at {issue.file}:{issue.line}\n"

/-- Blanks as wide as the first `count` characters of a line; tabs stay, so that columns line up. -/
def indentation (count : Nat) (line : String) : String :=
  let kept := (line.toList.take count).map fun char => if char == '\t' then '\t' else ' '
  String.ofList kept ++ Text.copies (count - kept.length) ' '

/-- The line of an issue with the marker below it. -/
def excerpt (issue : Issue) (line : String) : String :=
  let marker := Text.copies (max (issue.endChar - issue.startChar) 1) '^'
  "    " ++ line ++ "\n    " ++ indentation issue.startChar line ++ marker ++ "\n"

/-- An issue, with the line it is about if the source is known. -/
def render (source? : Option String) (issue : Issue) : String :=
  match source?.bind fun source => (Text.readLines source)[issue.line - 1]? with
  | some line => issue.headline ++ issue.excerpt line
  | none => issue.headline

/-- All issues in order; `source?` gives the sources that are known. -/
def renderAll (source? : String → Option String) (issues : List Issue) : String :=
  String.join (issues.map fun issue => issue.render (source? issue.file))

end Issue

end PhpAudit
