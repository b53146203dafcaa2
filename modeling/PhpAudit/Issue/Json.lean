/-
This file writes issues for programs, as one JSON object that holds the list of issues.
-/

import PhpAudit.Issue

namespace PhpAudit.Issue

/-- One of the sixteen digits in small letters. -/
def hexDigit (value : Nat) : Char :=
  (Nat.toDigits 16 (value % 16)).headD '0'

/-- A character inside a JSON string; only what has to be escaped is. -/
def escaped (char : Char) : String :=
  match char with
  | '"' => "\\\""
  | '\\' => "\\\\"
  | '\n' => "\\n"
  | '\r' => "\\r"
  | '\t' => "\\t"
  | _ =>
    match char.toNat with
    | 0x08 => "\\b"
    | 0x0C => "\\f"
    | code =>
      if code < 0x20 then
        "\\u00" ++ String.ofList [hexDigit (code / 16), hexDigit code]
      else
        char.toString

def quoted (text : String) : String :=
  "\"" ++ String.join (text.toList.map escaped) ++ "\""

/-- The fields of an issue with their values. -/
def jsonFields (issue : Issue) : List (String × String) :=
  [("check_name", quoted issue.check), ("severity", quoted issue.severity.tag),
    ("message", quoted issue.message), ("filename", quoted issue.file),
    ("line", toString issue.line), ("start_char", toString issue.startChar),
    ("end_char", toString issue.endChar)]

def json (issue : Issue) : String :=
  let lines := issue.jsonFields.map fun (name, value) => "      " ++ quoted name ++ ": " ++ value
  "    \x7b\n" ++ Text.join ",\n" lines ++ "\n    \x7d"

/-- The object with all issues, two blanks deeper per level. -/
def jsonAll (issues : List Issue) : String :=
  let list :=
    if issues.isEmpty then "[]" else "[\n" ++ Text.join ",\n" (issues.map json) ++ "\n  ]"
  "\x7b\n  \"diagnostics\": " ++ list ++ "\n\x7d"

end PhpAudit.Issue
