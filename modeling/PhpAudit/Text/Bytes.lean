/-
This file cuts texts at byte offsets. Offsets count UTF-8 bytes; a cut inside a character does not
exist.
-/

namespace PhpAudit.Text

/-- The number of UTF-8 bytes of a list of characters. -/
def byteLength : List Char → Nat
  | [] => 0
  | char :: rest => char.utf8Size + byteLength rest

/-- The characters after the first `count` bytes, if that is a character boundary. -/
def dropBytes? : Nat → List Char → Option (List Char)
  | 0, chars => some chars
  | _ + 1, [] => none
  | count + 1, char :: rest =>
    if char.utf8Size ≤ count + 1 then dropBytes? (count + 1 - char.utf8Size) rest else none

/-- The characters of the first `count` bytes, if that is a character boundary. -/
def takeBytes? : Nat → List Char → Option (List Char)
  | 0, _ => some []
  | _ + 1, [] => none
  | count + 1, char :: rest =>
    if char.utf8Size ≤ count + 1 then
      (takeBytes? (count + 1 - char.utf8Size) rest).map (char :: ·)
    else
      none

/-- The characters between two byte offsets, if both are character boundaries in order. -/
def charsBetween? (chars : List Char) (start stop : Nat) : Option (List Char) :=
  if start ≤ stop then (dropBytes? start chars).bind (takeBytes? (stop - start)) else none

/-- The text between two byte offsets, if both are character boundaries in order. -/
def slice? (text : String) (start stop : Nat) : Option String :=
  (charsBetween? text.toList start stop).map String.ofList

/-- The text between two byte offsets, empty where it does not exist. -/
def slice (text : String) (start stop : Nat) : String :=
  (slice? text start stop).getD ""

/-- The text between two byte offsets, empty where it does not exist; only its own bytes are read. -/
def cut (text : String) (start stop : Nat) : String :=
  if start ≤ stop ∧ stop ≤ text.utf8ByteSize then
    (String.fromUTF8? (text.toUTF8.extract start stop)).getD ""
  else
    ""

end PhpAudit.Text
