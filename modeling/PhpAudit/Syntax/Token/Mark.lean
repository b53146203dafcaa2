/-
This file reads the tokens that stand for themselves: names, variables, numbers, casts, quoted
strings without parts and the marks of the language. A token is cut off the front of the characters
at hand.
-/

import PhpAudit.Syntax.Fragment
import PhpAudit.Syntax.Quoted
import PhpAudit.Syntax.Token

namespace PhpAudit.Lexer

/-- What was read, in reverse, and what follows. -/
abbrev Cut := List Char × List Char

/-- Moves `count` characters from the rest to what was read. -/
def Cut.advance (count : Nat) (cut : Cut) : Cut :=
  ((cut.2.take count).reverse ++ cut.1, cut.2.drop count)

/-- Moves the characters accepted by `keep` from the rest to what was read. -/
def Cut.advanceWhile (keep : Char → Bool) (cut : Cut) : Cut :=
  ((cut.2.takeWhile keep).reverse ++ cut.1, cut.2.dropWhile keep)

/-- Whether the characters begin with a text, up to the case of ASCII letters. -/
def startsWithFolded (start : String) (chars : List Char) : Bool :=
  start.toList.isPrefixOf ((chars.take start.length).map Char.toLower)

/-- The blanks of ASCII, without the vertical tab. -/
def isPad (char : Char) : Bool :=
  char == ' ' || char == '\t' || char == '\n' || char == '\r' || char == '\x0c'

/-! ### Blanks and comments -/

def isBlank (char : Char) : Bool :=
  isPad char || char == '\x0b'

/-- The characters before the end of a line or of the script, and the rest. -/
def lineComment : List Char → List Char × List Char
  | [] => ([], [])
  | '?' :: '>' :: rest => ([], '?' :: '>' :: rest)
  | char :: rest =>
    if char == '\n' || char == '\r' then
      ([], char :: rest)
    else
      let (inside, after) := lineComment rest
      (char :: inside, after)

/-- The characters up to the end of a comment, and the rest; none if the comment is not closed. -/
def blockComment? : List Char → Option (List Char × List Char)
  | [] => none
  | '*' :: '/' :: rest => some (['*', '/'], rest)
  | char :: rest => (blockComment? rest).map fun (inside, after) => (char :: inside, after)

/-- Skips blanks and comments; counts the bytes skipped. -/
def skip? : Nat → Nat → List Char → Option (Nat × List Char)
  | 0, _, _ => none
  | fuel + 1, offset, chars =>
    match chars with
    | '#' :: '[' :: _ => some (offset, chars)
    | '#' :: rest | '/' :: '/' :: rest =>
      let (inside, after) := lineComment rest
      let mark := if chars.head? == some '#' then 1 else 2
      skip? fuel (offset + mark + Text.byteLength inside) after
    | '/' :: '*' :: rest =>
      match blockComment? rest with
      | some (inside, after) => skip? fuel (offset + 2 + Text.byteLength inside) after
      | none => none
    | char :: rest => if isBlank char then skip? fuel (offset + 1) rest else some (offset, chars)
    | [] => some (offset, [])

/-! ### Strings without parts -/

/-- A string up to its closing quote, after its opening one; a backslash guards what follows it. -/
def quoted? (quote : Char) : Cut → Option Cut
  | (_, []) => none
  | (before, '\\' :: char :: rest) => quoted? quote (char :: '\\' :: before, rest)
  | (before, char :: rest) =>
    if char == quote then some (char :: before, rest) else quoted? quote (char :: before, rest)
termination_by cut => cut.2.length

/--
Whether nothing is interpolated into a string between double quotes, after its opening quote. Only
names that start with an ASCII letter or an underscore count here.
-/
def isLiteral : List Char → Bool
  | [] => true
  | '\\' :: _ :: rest => isLiteral rest
  | '"' :: _ => true
  | '{' :: '$' :: _ => false
  | '$' :: char :: rest =>
    if char == '{' || char == '_' || char.isAlpha then false else isLiteral (char :: rest)
  | _ :: rest => isLiteral rest

/-- A string without parts, after `cut` was read. -/
def stringToken? (quote : Char) (cut : Cut) : Option (TokenKind × Cut) :=
  (quoted? quote (cut.advance 1)).map fun cut =>
    (.string (Quoted.value? (String.ofList cut.1.reverse)), cut)

/-! ### Numbers -/

/-- Moves digits of a radix, with single underscores before them, to what was read. -/
def digits (radix : Nat) : List Char → List Char → Cut
  | before, '_' :: char :: rest =>
    if (Number.digit? radix char).isSome then digits radix (char :: '_' :: before) rest
    else (before, '_' :: char :: rest)
  | before, char :: rest =>
    if (Number.digit? radix char).isSome then digits radix (char :: before) rest
    else (before, char :: rest)
  | before, [] => (before, [])

/-- The exponent of a float, if there is one. -/
def exponent? (cut : Cut) : Option Cut :=
  match cut.2 with
  | mark :: rest =>
    if mark == 'e' || mark == 'E' then
      let (count, rest) := match rest with
        | '+' :: rest | '-' :: rest => (2, rest)
        | rest => (1, rest)
      let signed := cut.advance count
      if rest.head?.any Char.isDigit then some (digits 10 signed.1 signed.2) else none
    else
      none
  | [] => none

/-- The radix that the mark after a leading zero names, if a digit of it follows. -/
def radix? : List Char → Option Nat
  | '0' :: mark :: first :: _ =>
    let named := match mark.toLower with
      | 'x' => some 16
      | 'o' => some 8
      | 'b' => some 2
      | _ => none
    named.filter fun radix => (Number.digit? radix first).isSome
  | _ => none

/-- A number that starts with a digit or a point. A point after digits always belongs to them. -/
def number (chars : List Char) : TokenKind × Cut :=
  match radix? chars with
  | some radix => (.integer, digits radix (chars.take 2).reverse (chars.drop 2))
  | none =>
    let whole := digits 10 [] chars
    match whole.2 with
    | '.' :: rest =>
      let fraction := digits 10 ('.' :: whole.1) rest
      (.float, (exponent? fraction).getD fraction)
    | _ =>
      match exponent? whole with
      | some cut => (.float, cut)
      | none => (.integer, whole)

/-! ### Names -/

/-- Moves the characters of a name to what was read; its parts are joined by backslashes. -/
def nameParts : List Char → List Char → Cut
  | before, '\\' :: char :: rest =>
    if Fragment.startsIdent char then nameParts (char :: '\\' :: before) rest
    else (before, '\\' :: char :: rest)
  | before, char :: rest =>
    if Fragment.continuesIdent char then nameParts (char :: before) rest else (before, char :: rest)
  | before, [] => (before, [])

/-- The modifiers that restrict writing only; nothing may stand between their characters. -/
def writeModifiers : List String :=
  ["public(set)", "protected(set)", "private(set)"]

/-- A name, possibly qualified, or a modifier that restricts writing. -/
def name (chars : List Char) : Cut :=
  match writeModifiers.find? fun word => startsWithFolded word chars with
  | some word => Cut.advance word.length ([], chars)
  | none => nameParts [] chars

/-! ### Marks -/

/-- The marks, longer ones before their beginnings. -/
def symbols : List String :=
  ["===", "!==", "<=>", "<<=", ">>=", "**=", "...", "??=", "?->", "==", "!=", "<>", "<=", ">=", "<<",
    ">>", "**", "*=", "++", "+=", "--", "-=", "->", "??", "::", "=>", ".=", "&&", "&=", "||", "|=",
    "|>", "^=", "%=", "/=", "#[", "$\x7b", "=", "<", ">", "*", "+", "-", "?", ":", ".", "&", "|", "^",
    "!", "~", "@", "%", "/", "(", ")", "[", "]", "\x7b", "\x7d", ",", ";", "$", "\\"]

/-- A mark. -/
def symbolToken? (chars : List Char) : Option (TokenKind × Cut) :=
  (symbols.find? fun symbol => symbol.toList.isPrefixOf chars).map fun symbol =>
    (.symbol, Cut.advance symbol.length ([], chars))

/-- The types that a cast can name. -/
def castNames : List String :=
  ["string", "binary", "int", "integer", "float", "double", "real", "bool", "boolean", "array",
    "object", "unset", "void"]

/-- The characters of a pattern in order, in any case and with blanks before each of them. -/
def matchSpread? : List Char → Cut → Option Cut
  | [], cut => some cut
  | expected :: pattern, cut =>
    let cut := cut.advanceWhile isPad
    match cut.2 with
    | char :: _ => if char.toLower == expected then matchSpread? pattern (cut.advance 1) else none
    | [] => none

/-- A type between parentheses; blanks may stand anywhere inside. -/
def cast? (chars : List Char) : Option Cut :=
  castNames.findSome? fun type => matchSpread? ('(' :: type.toList ++ [')']) ([], chars)

/-! ### Tokens -/

/-- The token at the start of a script, if it is one without parts. -/
def token? (chars : List Char) : Option (TokenKind × Cut) :=
  let start : Cut := ([], chars)
  match chars with
  | [] => none
  | '?' :: '>' :: _ => some (.closeTag, start.advance 2)
  | '"' :: _ => stringToken? '"' start
  | '\'' :: _ => stringToken? '\'' start
  | 'b' :: '"' :: _ | 'B' :: '"' :: _ => stringToken? '"' (start.advance 1)
  | 'b' :: '\'' :: _ | 'B' :: '\'' :: _ => stringToken? '\'' (start.advance 1)
  | '(' :: _ =>
    match cast? chars with
    | some cut => some (.cast, cut)
    | none => symbolToken? chars
  | '$' :: char :: _ =>
    if Fragment.startsIdent char then
      some (.variable, (start.advance 1).advanceWhile Fragment.continuesIdent)
    else
      symbolToken? chars
  | '\\' :: char :: _ =>
    if Fragment.startsIdent char then some (.name, nameParts [] chars)
    else symbolToken? chars
  | '.' :: char :: _ => if char.isDigit then some (number chars) else symbolToken? chars
  | char :: _ =>
    if char.isDigit then some (number chars)
    else if Fragment.startsIdent char then some (.name, name chars)
    else symbolToken? chars

end PhpAudit.Lexer
