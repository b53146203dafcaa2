/-
This file describes sets of code points by the bytes of their UTF-8 forms. A range of code points is
cut so that the forms of each piece are all rows of bytes that lie in given ranges.
-/

import PhpAudit.Text.CodeSet

namespace PhpAudit.Utf8

/-- A range for each byte. -/
abbrev ByteRanges := List (Nat × Nat)

/-- The bytes of a code point. -/
def encode (code : Nat) : List Nat :=
  let tail (unit : Nat) : Nat := 0x80 + code / unit % 0x40
  if code < 0x80 then [code]
  else if code < 0x800 then [0xC0 + code / 0x40, tail 1]
  else if code < 0x10000 then [0xE0 + code / 0x1000, tail 0x40, tail 1]
  else [0xF0 + code / 0x40000, tail 0x1000, tail 0x40, tail 1]

/-- The code points with equally long forms, without surrogates, which have none. -/
def lengths : List (Nat × Nat) :=
  [(0, 0x7F), (0x80, 0x7FF), (0x800, 0xD7FF), (0xE000, 0xFFFF), (0x10000, 0x10FFFF)]

/-- The part of a range inside another. -/
def clip (inner outer : Nat × Nat) : Option (Nat × Nat) :=
  let first := max inner.1 outer.1
  let last := min inner.2 outer.2
  if first ≤ last then some (first, last) else none

/--
Cuts a range where the leading bytes change: at each size in turn, the blocks of that size that are
not full come off at both ends, and full blocks stay together.
-/
def pieces : (sizes : List Nat) → Nat × Nat → List (Nat × Nat)
  | [], range => [range]
  | size :: sizes, (first, last) =>
    if first / size == last / size then
      [(first, last)]
    else
      let start := (first + size - 1) / size * size
      let stop := (last + 1) / size * size
      let head := if first < start then [(first, start - 1)] else []
      let middle := if start < stop then pieces sizes (start, stop - 1) else []
      let tail := if stop ≤ last then [(stop, last)] else []
      head ++ middle ++ tail

/-- The byte ranges of the forms of a set, in increasing order. -/
def byteRanges (set : CodeSet) : List ByteRanges :=
  set.ranges.flatMap fun range => (lengths.filterMap (clip range)).flatMap fun part =>
    let cut := if part.1 < 0x80 then [part] else pieces [0x40, 0x1000, 0x40000] part
    cut.map fun (first, last) => (encode first).zip (encode last)

end PhpAudit.Utf8
