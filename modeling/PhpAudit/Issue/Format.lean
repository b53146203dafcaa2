/-
This file names the forms in which issues are written.
-/

import PhpAudit.Issue.Json
import PhpAudit.Issue.Text

namespace PhpAudit

/-- How issues are written. -/
inductive OutputFormat where
  | text
  | json
deriving DecidableEq, Inhabited, Repr

namespace OutputFormat

/-- The format with a name, in any case. -/
def ofName? (name : String) : Option OutputFormat :=
  match Text.lower name with
  | "text" => some text
  | "json" => some json
  | _ => none

/-- The issues in a format; only the text shows lines of the sources that are known. -/
def write (source? : String → Option String) (issues : List Issue) : OutputFormat → String
  | text => Issue.renderAll source? issues
  | json => Issue.jsonAll issues

end OutputFormat

end PhpAudit
