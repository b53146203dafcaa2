/-
This file maps byte offsets of a source to lines and columns. A line starts at the beginning of the
source and after every newline; the line of an offset is the number of starts at or before it.
-/

import PhpAudit.Text.Basic
import PhpAudit.Text.Bytes

namespace PhpAudit.Text

/-- The offsets at which a line starts after a newline in `chars`, which begins at byte `offset`. -/
def startsAfterNewline (offset : Nat) : List Char → List Nat
  | [] => []
  | char :: rest =>
    let next := offset + char.utf8Size
    if char == '\n' then next :: startsAfterNewline next rest else startsAfterNewline next rest

/-- The byte offsets at which the lines of `text` start, in increasing order. -/
def lineStarts (text : String) : List Nat :=
  0 :: startsAfterNewline 0 text.toList

/-- Lines and columns of one source. -/
structure Lines where
  text : String
  starts : List Nat
deriving Inhabited

namespace Lines

def of (text : String) : Lines where
  text := text
  starts := lineStarts text

/-- The 1-based line that holds the byte `offset`. -/
def line (lines : Lines) (offset : Nat) : Nat :=
  lines.starts.countP (· ≤ offset)

/-- The byte offset at which the 1-based line `number` starts. -/
def start (lines : Lines) (number : Nat) : Nat :=
  lines.starts.getD (number - 1) 0

/--
The 1-based column of the byte `offset` within its line, counted in characters. An offset inside a
character has no count of characters, and its bytes are counted instead.
-/
def column (lines : Lines) (offset : Nat) : Nat :=
  let start := lines.start (lines.line offset)
  let stop := min offset lines.text.utf8ByteSize
  match charsBetween? lines.text.toList start stop with
  | some chars => chars.length + 1
  | none => stop - start + 1

/-- The number of characters of each line, without the carriage returns that end it. -/
def lengths (lines : Lines) : List Nat :=
  (splitBy (· == '\n') lines.text).map fun line =>
    (trimEndWhile (· == '\r') line).length

end Lines

/-- The lines of a text as a reader sees them: without terminators, and none after the last one. -/
def readLines (text : String) : List String :=
  let parts := splitBy (· == '\n') text
  let kept := if parts.getLast? == some "" then parts.dropLast else parts
  let terminated := kept.length < parts.length
  kept.zipIdx.map fun (part, position) =>
    if position + 1 < kept.length || terminated then (beforeEnd? part "\r").getD part else part

end PhpAudit.Text
