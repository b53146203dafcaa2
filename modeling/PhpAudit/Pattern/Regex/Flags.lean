/-
This file defines the settings that inline flags change, and how they are written.
-/

import PhpAudit.Text.Basic
import PhpAudit.Unicode.CaseFold

namespace PhpAudit.Regex

/-- The settings under which a part of a regular expression is read. -/
structure Flags where
  /-- `i`: letters match in both cases -/
  insensitive : Bool := false
  /-- `m`: the anchors match at every line -/
  multiLine : Bool := false
  /-- `s`: the dot matches line ends too -/
  dotAll : Bool := false
  /-- `u`: classes hold characters outside ASCII -/
  unicode : Bool := true
  /-- `x`: blanks and comments are skipped -/
  extended : Bool := false
  /-- `R`: a carriage return ends a line -/
  crlf : Bool := false
deriving DecidableEq, Inhabited, Repr

namespace Flags

/-- The flags after letters up to `:` or `)`; `seen` are the letters that stand before. -/
def read? : (seen : List Char) → (negated dangling : Bool) → List Char → Flags →
    Option (Flags × List Char)
  | _, _, _, [], _ => none
  | seen, negated, dangling, char :: rest, flags =>
    if char == ':' || char == ')' then
      if dangling then none else some (flags, char :: rest)
    else if char == '-' then
      if negated then none else read? seen true true rest flags
    else if seen.contains char then
      none
    else
      let next := read? (char :: seen) negated false rest
      match char with
      | 'i' => next { flags with insensitive := !negated }
      | 'm' => next { flags with multiLine := !negated }
      | 's' => next { flags with dotAll := !negated }
      | 'u' => next { flags with unicode := !negated }
      | 'x' => next { flags with extended := !negated }
      | 'R' => next { flags with crlf := !negated }
      -- Whether a repetition takes as much as it can decides only which match is found.
      | 'U' => next flags
      | _ => none

/-! ### Skipped text -/

/-- Drops blanks and comments, which end with their line. -/
def dropSkipped : (inComment : Bool) → List Char → List Char
  | _, [] => []
  | true, char :: rest => dropSkipped (char != '\n') rest
  | false, char :: rest =>
    if char == '#' then dropSkipped true rest
    else if Text.isBlank char then dropSkipped false rest
    else char :: rest

/-- What follows the text that the flags allow to skip. -/
def skip (flags : Flags) (chars : List Char) : List Char :=
  if flags.extended then dropSkipped false chars else chars

/-- The characters up to a closing brace, all of them accepted, without skipped text. -/
def braced? (flags : Flags) (accepts : Char → Bool) :
    (inComment : Bool) → List Char → Option (List Char × List Char)
  | _, [] => none
  | true, char :: rest => braced? flags accepts (char != '\n') rest
  | false, char :: rest =>
    if flags.extended && char == '#' then
      braced? flags accepts true rest
    else if flags.extended && Text.isBlank char then
      braced? flags accepts false rest
    else if char == '}' then
      some ([], rest)
    else if accepts char then
      (braced? flags accepts false rest).map fun (inside, rest) => (char :: inside, rest)
    else
      none

/-! ### Sets under flags -/

/-- A set, closed under change of case if the flags say so. -/
def caseClosed (flags : Flags) (set : CodeSet) : CodeSet :=
  if !flags.insensitive then set
  else if flags.unicode then Unicode.foldCase set
  else Unicode.foldAsciiCase set

/-- A set or its complement; without Unicode a complement would split characters. -/
def orComplement (flags : Flags) (negated : Bool) (set : CodeSet) : Option CodeSet :=
  if !negated then some set
  else if flags.unicode then some set.complement
  else none

end Flags

end PhpAudit.Regex
