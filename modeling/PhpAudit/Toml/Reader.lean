/-
This file reads TOML documents. A reader takes the characters at hand and gives the value with the
characters after it, or nothing if the text is malformed.
-/

import PhpAudit.Syntax.Number
import PhpAudit.Toml.Basic

namespace PhpAudit.Toml

/-- A value that was read, and what follows it. -/
abbrev Read (Value : Type) := Option (Value × List Char)

/-! ### Blanks and comments -/

def isBlank (char : Char) : Bool :=
  char == ' ' || char == '\t'

/-- The control characters that may stand nowhere. -/
def isControl (char : Char) : Bool :=
  (char.toNat < 0x20 && char != '\t') || char.toNat == 0x7F

def skipBlanks (chars : List Char) : List Char :=
  chars.dropWhile isBlank

/-- The characters after a line end. -/
def newline? : List Char → Option (List Char)
  | '\n' :: rest => some rest
  | '\r' :: '\n' :: rest => some rest
  | _ => none

/-- Skips a comment up to the end of its line. -/
def skipComment (chars : List Char) : List Char :=
  match chars with
  | '#' :: rest => rest.dropWhile fun char => !isControl char
  | _ => chars

/-- The rest after the end of a line: blanks, a comment, then a line end or the end of the text. -/
def lineEnd? (chars : List Char) : Option (List Char) :=
  match skipComment (skipBlanks chars) with
  | [] => some []
  | rest => newline? rest

/-- Skips blanks, comments and line ends between the items of an array. -/
def skipLines : Nat → List Char → List Char
  | 0, chars => chars
  | fuel + 1, chars =>
    let rest := skipComment (skipBlanks chars)
    match newline? rest with
    | some rest => skipLines fuel rest
    | none => rest

/-! ### Strings -/

/-- The character with so many hexadecimal digits at hand. -/
def codePoint? (width : Nat) (chars : List Char) : Read Char :=
  if chars.length < width then
    none
  else
    (Number.natural? 16 (chars.take width)).bind fun code =>
      if code.isValidChar then some (Char.ofNat code, chars.drop width) else none

/-- The character after a backslash. -/
def escape? : List Char → Read Char
  | 'b' :: rest => some (Char.ofNat 0x08, rest)
  | 't' :: rest => some ('\t', rest)
  | 'n' :: rest => some ('\n', rest)
  | 'f' :: rest => some (Char.ofNat 0x0C, rest)
  | 'r' :: rest => some ('\r', rest)
  | '"' :: rest => some ('"', rest)
  | '\\' :: rest => some ('\\', rest)
  | 'u' :: rest => codePoint? 4 rest
  | 'U' :: rest => codePoint? 8 rest
  | _ => none

/-- A string after its first `"`; `before` holds what was read, in reverse. -/
def basic? : Nat → List Char → List Char → Read String
  | 0, _, _ => none
  | fuel + 1, before, chars =>
    match chars with
    | '"' :: rest => some (String.ofList before.reverse, rest)
    | '\\' :: rest => (escape? rest).bind fun (char, rest) => basic? fuel (char :: before) rest
    | char :: rest => if isControl char then none else basic? fuel (char :: before) rest
    | [] => none

/-- A string between apostrophes, after the first one. -/
def literal? (chars : List Char) : Read String :=
  let inside := chars.takeWhile fun char => char != '\'' && !isControl char
  match chars.drop inside.length with
  | '\'' :: rest => some (String.ofList inside, rest)
  | _ => none

/-- The closing of a string of several lines: three quotes, after at most two that belong to it. -/
def closing? (quote : Char) (chars : List Char) : Read (List Char) :=
  let count := (chars.takeWhile (· == quote)).length
  if 3 ≤ count && count ≤ 5 then some (List.replicate (count - 3) quote, chars.drop count)
  else none

/-- The blanks and line ends after a backslash at the end of a line. -/
def continuation? (fuel : Nat) (chars : List Char) : Option (List Char) :=
  (newline? (skipBlanks chars)).map (skipAll fuel)
where
  /-- Skips blanks and line ends. -/
  skipAll : Nat → List Char → List Char
    | 0, chars => chars
    | fuel + 1, chars =>
      let rest := skipBlanks chars
      match newline? rest with
      | some rest => skipAll fuel rest
      | none => rest

/-- A string of several lines, with or without escapes, after its opening. -/
def multiLine? (quote : Char) (escapes : Bool) : Nat → List Char → List Char → Read String
  | 0, _, _ => none
  | fuel + 1, before, chars =>
    match closing? quote chars with
    | some (quotes, rest) => some (String.ofList (before.reverse ++ quotes), rest)
    | none =>
      match newline? chars with
      | some rest => multiLine? quote escapes fuel ('\n' :: before) rest
      | none =>
        match chars with
        | [] => none
        | char :: rest =>
          if escapes && char == '\\' then
            match continuation? chars.length rest with
            | some rest => multiLine? quote escapes fuel before rest
            | none =>
              (escape? rest).bind fun (char, rest) =>
                multiLine? quote escapes fuel (char :: before) rest
          else if isControl char then
            none
          else if char == quote && 5 < (chars.takeWhile (· == quote)).length then
            none
          else
            multiLine? quote escapes fuel (char :: before) rest

/-- A string of any of the four kinds. -/
def string? (chars : List Char) : Read String :=
  let fuel := chars.length + 1
  let opened (rest : List Char) := (newline? rest).getD rest
  match chars with
  | '"' :: '"' :: '"' :: rest => multiLine? '"' true fuel [] (opened rest)
  | '\'' :: '\'' :: '\'' :: rest => multiLine? '\'' false fuel [] (opened rest)
  | '"' :: rest => basic? fuel [] rest
  | '\'' :: rest => literal? rest
  | _ => none

/-! ### Keys -/

/-- How deep arrays and inline tables may nest, and how many parts a key may have. -/
def nestingLimit : Nat := 79

def isKeyChar (char : Char) : Bool :=
  char.isAlphanum || char == '_' || char == '-'

/-- One part of a key, bare or quoted on one line. -/
def simpleKey? (chars : List Char) : Read String :=
  match chars with
  | '"' :: rest => basic? (chars.length + 1) [] rest
  | '\'' :: rest => literal? rest
  | _ =>
    match chars.takeWhile isKeyChar with
    | [] => none
    | name => some (String.ofList name, chars.dropWhile isKeyChar)

/--
A key of at most `count` parts: those before the last one, in reverse after `path`, and the last.
-/
def keyOf? : (count : Nat) → (path : List String) → List Char → Read (List String × String)
  | 0, _, _ => none
  | count + 1, path, chars =>
    (simpleKey? (skipBlanks chars)).bind fun (name, rest) =>
      match skipBlanks rest with
      | '.' :: rest => keyOf? count (name :: path) rest
      | rest => some ((path.reverse, name), rest)

/-- A key, possibly dotted: the parts before the last one, and the last. -/
def key? (chars : List Char) : Read (List String × String) :=
  keyOf? nestingLimit [] chars

/-! ### Numbers and dates -/

/-- Digits with single underscores between them, without the underscores. -/
def digits? (radix : Nat) (chars : List Char) : Read (List Char) :=
  let isPart (char : Char) : Bool := char == '_' || (Number.digit? radix char).isSome
  let part := chars.takeWhile isPart
  let doubled := (part.zip part.tail).any fun (first, second) => first == '_' && second == '_'
  if part.isEmpty || doubled || part.head? == some '_' || part.getLast? == some '_' then none
  else some (part.filter (· != '_'), chars.dropWhile isPart)

/-- So many decimal digits as a number. -/
def fixed? (width : Nat) (chars : List Char) : Read Nat :=
  let part := chars.take width
  if part.length == width && part.all Char.isDigit then
    (Number.natural? 10 part).map fun value => (value, chars.drop width)
  else
    none

/-- The number of days of a month. -/
def daysIn (year month : Nat) : Nat :=
  let leap := year % 4 == 0 && (year % 100 != 0 || year % 400 == 0)
  if month == 2 then (if leap then 29 else 28)
  else if [4, 6, 9, 11].contains month then 30
  else 31

/-- A date. -/
def day? (chars : List Char) : Option (List Char) := do
  let (year, rest) ← fixed? 4 chars
  let rest ← after? '-' rest
  let (month, rest) ← fixed? 2 rest
  let rest ← after? '-' rest
  let (day, rest) ← fixed? 2 rest
  if 1 ≤ month && month ≤ 12 && 1 ≤ day && day ≤ daysIn year month then some rest else none
where
  /-- What follows an expected character. -/
  after? (expected : Char) : List Char → Option (List Char)
    | char :: rest => if char == expected then some rest else none
    | [] => none

/-- A time of day. -/
def clock? (chars : List Char) : Option (List Char) := do
  let (hour, rest) ← fixed? 2 chars
  let rest ← day?.after? ':' rest
  let (minute, rest) ← fixed? 2 rest
  let rest ← day?.after? ':' rest
  let (second, rest) ← fixed? 2 rest
  if hour ≤ 23 && minute ≤ 59 && second ≤ 60 then
    match rest with
    | '.' :: digits =>
      if (digits.head?.any Char.isDigit) then some (digits.dropWhile Char.isDigit) else none
    | rest => some rest
  else
    none

/-- The offset of a time from the universal one, if there is one. -/
def offset? (chars : List Char) : Option (List Char) :=
  match chars with
  | 'Z' :: rest | 'z' :: rest => some rest
  | sign :: rest =>
    if sign == '+' || sign == '-' then do
      let (hour, rest) ← fixed? 2 rest
      let rest ← day?.after? ':' rest
      let (minute, rest) ← fixed? 2 rest
      if hour ≤ 23 && minute ≤ 59 then some rest else none
    else
      some chars
  | [] => some []

/-- A date, a time, or both. -/
def date? (chars : List Char) : Option (List Char) :=
  match day? chars with
  | some rest =>
    match rest with
    | 'T' :: time | 't' :: time => (clock? time).bind offset?
    | ' ' :: time => if (clock? time).isSome then (clock? time).bind offset? else some rest
    | rest => some rest
  | none => clock? chars

/-- Whether the characters at hand begin a date or a time. -/
def beginsDate (chars : List Char) : Bool :=
  (fixed? 4 chars).any (fun (_, rest) => rest.head? == some '-') ||
    (fixed? 2 chars).any (fun (_, rest) => rest.head? == some ':')

/-- A whole number of 64 bits. -/
def integer? (value : Int) (rest : List Char) : Read Toml :=
  (Number.fit? value).map fun value => (.integer value.toInt, rest)

/-- The fraction or exponent after the digits of a float, as plain text. -/
def fraction? (chars : List Char) : Option (List Char × List Char) := do
  let (fraction, rest) ← match chars with
    | '.' :: rest => (digits? 10 rest).map fun (digits, rest) => ('.' :: digits, rest)
    | rest => some ([], rest)
  match rest with
  | 'e' :: rest | 'E' :: rest =>
    let (sign, rest) := match rest with
      | '-' :: rest => (['-'], rest)
      | '+' :: rest => ([], rest)
      | rest => ([], rest)
    let (digits, rest) ← digits? 10 rest
    some (fraction ++ 'e' :: (sign ++ digits), rest)
  | rest => some (fraction, rest)

/-- A decimal number after its sign. -/
def decimal? (negative : Bool) (chars : List Char) : Option (Toml × List Char) := do
  let (digits, rest) ← digits? 10 chars
  if 1 < digits.length && digits.head? == some '0' then
    none
  else
    match rest with
    | '.' :: _ | 'e' :: _ | 'E' :: _ =>
      let (tail, rest) ← fraction? rest
      let value ← Number.unsigned? (digits ++ tail)
      -- Too large a number is refused, but not one too far below zero.
      if value.isFinite || negative then some (.float, rest) else none
    | _ =>
      let value ← Number.natural? 10 digits
      integer? (if negative then -(value : Int) else value) rest

/-- A number in another radix, after its mark. -/
def radix? (radix : Nat) (chars : List Char) : Option (Toml × List Char) := do
  let (digits, rest) ← digits? radix chars
  let value ← Number.natural? radix digits
  integer? value rest

/-- A number or a date. -/
def number? (chars : List Char) : Read Toml :=
  match chars with
  | '0' :: 'x' :: rest => radix? 16 rest
  | '0' :: 'o' :: rest => radix? 8 rest
  | '0' :: 'b' :: rest => radix? 2 rest
  | sign :: rest =>
    if sign == '+' || sign == '-' then
      match rest with
      | 'i' :: 'n' :: 'f' :: rest | 'n' :: 'a' :: 'n' :: rest => some (.float, rest)
      | _ => decimal? (sign == '-') rest
    else if beginsDate chars then
      (date? chars).map fun rest => (.date, rest)
    else
      decimal? false chars
  | [] => none

/-! ### Values -/

mutual

/-- A value of any kind; arrays and inline tables nest at most `depth` deep. -/
def value? (depth : Nat) : Nat → List Char → Read Toml
  | 0, _ => none
  | fuel + 1, chars =>
    match chars with
    | '"' :: _ | '\'' :: _ => (string? chars).map fun (text, rest) => (.string text, rest)
    | '[' :: rest =>
      if depth == 0 then none
      else (items? (depth - 1) fuel [] rest).map fun (items, rest) => (.array items, rest)
    | '{' :: rest =>
      if depth == 0 then
        none
      else
        match skipBlanks rest with
        | '}' :: rest => some (.table .inline [], rest)
        | rest =>
          match pairs? (depth - 1) fuel [] rest with
          | some (pairs, rest) => (ofPairs pairs).map fun entries => (.table .inline entries, rest)
          | none => none
    | 't' :: 'r' :: 'u' :: 'e' :: rest => some (.boolean true, rest)
    | 'f' :: 'a' :: 'l' :: 's' :: 'e' :: rest => some (.boolean false, rest)
    | 'i' :: 'n' :: 'f' :: rest | 'n' :: 'a' :: 'n' :: rest => some (.float, rest)
    | _ => number? chars

/-- The items of an array up to its bracket; `before` holds those already read, in reverse. -/
def items? (depth : Nat) : Nat → List Toml → List Char → Read (List Toml)
  | 0, _, _ => none
  | fuel + 1, before, chars =>
    match skipLines chars.length chars with
    | ']' :: rest => some (before.reverse, rest)
    | rest =>
      match value? depth fuel rest with
      | some (value, rest) =>
        match skipLines rest.length rest with
        | ',' :: rest => items? depth fuel (value :: before) rest
        | ']' :: rest => some ((value :: before).reverse, rest)
        | _ => none
      | none => none

/-- The pairs of an inline table up to its brace. -/
def pairs? (depth : Nat) : Nat → List (List String × String × Toml) → List Char →
    Read (List (List String × String × Toml))
  | 0, _, _ => none
  | fuel + 1, before, chars =>
    match key? chars with
    | some ((path, name), '=' :: rest) =>
      match value? depth fuel (skipBlanks rest) with
      | some (value, rest) =>
        match skipBlanks rest with
        | ',' :: rest => pairs? depth fuel ((path, name, value) :: before) rest
        | '}' :: rest => some (((path, name, value) :: before).reverse, rest)
        | _ => none
      | none => none
    | _ => none

end

/-! ### Documents -/

/-- The header after its first bracket. -/
def header? (chars : List Char) : Read Section :=
  let (repeated, chars) := match chars with
    | '[' :: rest => (true, rest)
    | rest => (false, rest)
  match key? chars with
  | some ((path, name), rest) =>
    let part : Section := { path := path ++ [name], repeated, pairs := [] }
    match repeated, rest with
    | true, ']' :: ']' :: rest | false, ']' :: rest => some (part, rest)
    | _, _ => none
  | none => none

/-- A key with its value. -/
def pair? (chars : List Char) : Option ((List String × String × Toml) × List Char) := do
  let ((path, name), rest) ← key? chars
  match rest with
  | '=' :: rest =>
    let (value, rest) ← value? nestingLimit (3 * rest.length + 1) (skipBlanks rest)
    some ((path, name, value), rest)
  | _ => none

/-- The sections of a document; `done` are complete and in reverse, `part` is at hand. -/
def sections? : Nat → List Section → Section → List Char → Option (List Section)
  | 0, _, _, _ => none
  | fuel + 1, done, part, chars =>
    let finished : Section := { part with pairs := part.pairs.reverse }
    match skipBlanks chars with
    | [] => some (finished :: done).reverse
    | '[' :: rest =>
      match header? rest with
      | some (next, rest) =>
        (lineEnd? rest).bind fun rest => sections? fuel (finished :: done) next rest
      | none => none
    | '#' :: rest => (lineEnd? ('#' :: rest)).bind fun rest => sections? fuel done part rest
    | rest =>
      match newline? rest with
      | some rest => sections? fuel done part rest
      | none =>
        match pair? rest with
        | some (pair, rest) =>
          (lineEnd? rest).bind fun rest =>
            sections? fuel done { part with pairs := pair :: part.pairs } rest
        | none => none

/-- Reads a document; there is none if the text is malformed. -/
def ofText? (text : String) : Option Entries :=
  let chars := match text.toList with
    | '\uFEFF' :: rest => rest
    | chars => chars
  (sections? (chars.length + 1) [] { path := [], repeated := false, pairs := [] } chars).bind
    ofSections

end PhpAudit.Toml
