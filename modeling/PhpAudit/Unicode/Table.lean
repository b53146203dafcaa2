/-
This file reads the tables of the Unicode character database. A table lists sets of code points by
name. A set is written as ranges of hexadecimal numbers, `41-5A` for the range and `100-12E/2` for
every second code point of it.
-/

import PhpAudit.Syntax.Number
import PhpAudit.Text.CodeSet

namespace PhpAudit.Unicode

/-- The words of lines, between blanks. -/
def wordsOf (lines : List String) : List (List Char) :=
  lines.flatMap fun line => Text.splitChars (· == ' ') line.toList

/-- The number that hexadecimal digits stand for. -/
def hex (digits : List Char) : Nat :=
  (Number.natural? 16 digits).getD 0

/-- Every code point from `first` to `last` that is a multiple of `step` away from the first. -/
def every (step first last : Nat) : List Nat :=
  List.range' first ((last - first) / step + 1) step

/-- The ranges that one word of a table stands for. -/
def ranges (word : List Char) : List (Nat × Nat) :=
  let (bounds, step) := match Text.splitChars (· == '/') word with
    | [bounds, step] => (bounds, hex step)
    | _ => (word, 1)
  match Text.splitChars (· == '-') bounds with
  | [first, last] =>
    if step == 1 then [(hex first, hex last)]
    else (every step (hex first) (hex last)).map fun code => (code, code)
  | _ => [(hex bounds, hex bounds)]

/-- The set that the lines of a table stand for. -/
def codes (lines : List String) : CodeSet :=
  .ofRanges ((wordsOf lines).flatMap ranges)

/-! ### Names -/

/-- The form in which names are compared: small letters, without blanks, hyphens and underscores. -/
def looseName (name : String) : String :=
  Text.lower (Text.without (fun char => char == ' ' || char == '-' || char == '_') name)

/--
The form of a name that somebody asks for: characters outside ASCII and a leading `is` mean
nothing, except that `isc` is the abbreviation of another property than `c`.
-/
def askedName (name : String) : String :=
  let plain (name : String) := looseName (Text.without (fun char => 0x7F < char.toNat) name)
  match name.toList with
  | first :: second :: rest =>
    if (first == 'i' || first == 'I') && (second == 's' || second == 'S') then
      let after := plain (String.ofList rest)
      if after == "c" then "isc" else after
    else
      plain name
  | _ => plain name

/-- Whether a loose name is one of those that a line lists. -/
def isListed (name names : String) : Bool :=
  (wordsOf [names]).any fun other => looseName (String.ofList other) == name

/-- Sets of code points, each with the names it goes by and the lines that list it. -/
abbrev Table := List (String × List String)

/-- The set of a table with a loose name. -/
def Table.find? (table : Table) (name : String) : Option CodeSet :=
  (List.find? (fun (names, _) => isListed name names) table).map fun (_, lines) => codes lines

end PhpAudit.Unicode
