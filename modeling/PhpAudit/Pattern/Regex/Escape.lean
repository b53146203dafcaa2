/-
This file reads what may follow a backslash: a character by its code or its name, a class of
characters, or a condition on the position.
-/

import PhpAudit.Pattern.Regex.Basic
import PhpAudit.Pattern.Regex.Flags
import PhpAudit.Unicode.Query

namespace PhpAudit.Regex

/-- What one escape or plain character stands for. -/
inductive Primitive where
  | literal (char : Char)
  | set (members : CodeSet)
  | look (condition : Look)
deriving Inhabited

/-! ### Classes by name -/

def asciiClass? : String → Option CodeSet
  | "alnum" => some ⟨[(0x30, 0x39), (0x41, 0x5A), (0x61, 0x7A)]⟩
  | "alpha" => some ⟨[(0x41, 0x5A), (0x61, 0x7A)]⟩
  | "ascii" => some ⟨[(0, 0x7F)]⟩
  | "blank" => some ⟨[(0x09, 0x09), (0x20, 0x20)]⟩
  | "cntrl" => some ⟨[(0, 0x1F), (0x7F, 0x7F)]⟩
  | "digit" => some asciiDigits
  | "graph" => some ⟨[(0x21, 0x7E)]⟩
  | "lower" => some ⟨[(0x61, 0x7A)]⟩
  | "print" => some ⟨[(0x20, 0x7E)]⟩
  | "punct" => some ⟨[(0x21, 0x2F), (0x3A, 0x40), (0x5B, 0x60), (0x7B, 0x7E)]⟩
  | "space" => some asciiSpaces
  | "upper" => some ⟨[(0x41, 0x5A)]⟩
  | "word" => some asciiWord
  | "xdigit" => some ⟨[(0x30, 0x39), (0x41, 0x46), (0x61, 0x66)]⟩
  | _ => none
where
  asciiDigits : CodeSet := ⟨[(0x30, 0x39)]⟩
  asciiSpaces : CodeSet := ⟨[(0x09, 0x0D), (0x20, 0x20)]⟩

/-- `\d`, `\s`, `\w` and, as capitals, their complements. -/
def shorthand? (flags : Flags) (char : Char) : Option CodeSet :=
  let set? := match char.toLower with
    | 'd' => some (if flags.unicode then Unicode.decimalDigits else asciiClass?.asciiDigits)
    | 's' => some (if flags.unicode then Unicode.whiteSpace else asciiClass?.asciiSpaces)
    | 'w' => some (if flags.unicode then Unicode.wordCodes else asciiWord)
    | _ => none
  set?.bind (flags.orComplement char.isUpper)

/-- The set that a query means: one name, or a property and its value. -/
def query? (text : List Char) : Option CodeSet :=
  let separators := [['!', '='], [':'], ['=']]
  match separators.findSome? fun separator => Text.splitOnce separator text with
  | some (property, value) => Unicode.valued? (String.ofList property) (String.ofList value)
  | none => Unicode.named? (String.ofList text)

/-- The class after `\p` or, negated, after `\P`: one letter, or a query in braces. -/
def property? (flags : Flags) (negated : Bool) (chars : List Char) :
    Option (CodeSet × List Char) := do
  let (text, rest) ← match flags.skip chars with
    | '{' :: rest => flags.braced? (fun _ => true) false rest
    | '\\' :: _ => none
    | char :: rest => some ([char], rest)
    | [] => none
  if flags.unicode then
    let set ← query? text
    let set ← flags.orComplement negated (flags.caseClosed set)
    some (set, rest)
  else
    none

/-! ### Characters by code -/

/-- The character with a code point, if there is one. -/
def scalar? (code : Nat) : Option Char :=
  if code.isValidChar then some (Char.ofNat code) else none

def isHexDigit (char : Char) : Bool :=
  (Number.digit? 16 char).isSome

/-- So many hexadecimal digits. -/
def hexDigits? (flags : Flags) : Nat → List Char → Option (List Char × List Char)
  | 0, chars => some ([], chars)
  | _ + 1, [] => none
  | count + 1, char :: rest =>
    if isHexDigit char then
      (hexDigits? flags count (flags.skip rest)).map fun (digits, rest) => (char :: digits, rest)
    else
      none

/--
The character after `\x`, `\u` or `\U`: so many digits, or any number of them in braces. Without
Unicode two digits mean a byte, and a byte outside ASCII is no character.
-/
def hexEscape? (flags : Flags) (width : Nat) (chars : List Char) : Option (Char × List Char) :=
  match flags.skip chars with
  | '{' :: rest => do
    let (digits, rest) ← flags.braced? isHexDigit false rest
    let char ← (Number.natural? 16 digits).bind scalar?
    some (char, rest)
  | chars => do
    let (digits, rest) ← hexDigits? flags width chars
    let char ← (Number.natural? 16 digits).bind scalar?
    if width == 2 && !flags.unicode && 0x7F < char.toNat then none else some (char, rest)

/-! ### Conditions -/

/-- The edge after `\b`: a plain boundary, or one named in braces. -/
def wordEdge? (flags : Flags) (chars : List Char) : Option (WordEdge × List Char) :=
  let isNameChar (char : Char) : Bool := char.isAlpha || char == '-'
  match chars with
  | '{' :: rest =>
    match flags.skip rest with
    | [] => none
    | first :: _ =>
      if isNameChar first then do
        let (name, rest) ← flags.braced? isNameChar false rest
        match String.ofList name with
        | "start" => some (.start, rest)
        | "end" => some (.stop, rest)
        | "start-half" => some (.startHalf, rest)
        | "end-half" => some (.stopHalf, rest)
        | _ => none
      else
        -- The brace may open a repetition.
        some (.boundary, chars)
  | _ => some (.boundary, chars)

/-! ### Escapes -/

/-- What follows a backslash. Marks of ASCII stand for themselves. -/
def escape? (flags : Flags) : List Char → Option (Primitive × List Char)
  | [] => none
  | char :: rest =>
    let literal (code : Nat) := some (Primitive.literal (Char.ofNat code), rest)
    let edge (edge : WordEdge) := some (Primitive.look (.word edge flags.unicode), rest)
    let hex (width : Nat) := (hexEscape? flags width rest).map fun (char, rest) =>
      (Primitive.literal char, rest)
    match char with
    | 'x' => hex 2
    | 'u' => hex 4
    | 'U' => hex 8
    | 'p' | 'P' =>
      (property? flags (char == 'P') rest).map fun (set, rest) => (.set set, rest)
    | 'd' | 's' | 'w' | 'D' | 'S' | 'W' =>
      (shorthand? flags char).map fun set => (.set set, rest)
    | 'a' => literal 0x07
    | 'f' => literal 0x0C
    | 't' => literal 0x09
    | 'n' => literal 0x0A
    | 'r' => literal 0x0D
    | 'v' => literal 0x0B
    | 'A' => some (.look .textStart, rest)
    | 'z' => some (.look .textEnd, rest)
    | 'b' => (wordEdge? flags rest).map fun (edge, rest) => (.look (.word edge flags.unicode), rest)
    | 'B' => edge .inside
    | '<' => edge .start
    | '>' => edge .stop
    | _ => if char.toNat < 0x80 && !char.isAlphanum then some (.literal char, rest) else none

end PhpAudit.Regex
