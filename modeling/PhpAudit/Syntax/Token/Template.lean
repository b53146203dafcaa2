/-
This file takes strings with parts apart: strings between double quotes or backticks, and heredocs.
Such a string is a row of stretches of literal text with code in between. Here the stretches are cut,
and the code is measured; reading the code is left to the lexer.
-/

import PhpAudit.Syntax.Token.Mark

namespace PhpAudit.Lexer

/-- How a string with parts ends. -/
inductive Ending where
  /-- With the mark that opened it -/
  | quote (mark : Char)
  /-- With a label at the start of a line; a nowdoc holds no code -/
  | label (name : List Char) (interpolates : Bool)
deriving DecidableEq, Inhabited

/-- Where a stretch of literal text stops. -/
inductive Stop where
  /-- Before code -/
  | code
  /-- Before the closing mark or label, which has this many characters -/
  | close (size : Nat)
  /-- At the end of a line, which belongs to the stretch -/
  | line
deriving DecidableEq, Inhabited

/-! ### Code inside a string -/

/-- Whether `$name` is at hand. -/
def atVariable : List Char → Bool
  | '$' :: char :: _ => Fragment.startsIdent char
  | _ => false

/-- Whether code in braces is at hand. -/
def atBraces : List Char → Bool
  | '{' :: '$' :: _ => true
  | '$' :: '{' :: _ => true
  | _ => false

/-- The number of characters up to the brace that closes the code, as many as are open. -/
def bracesSize? : Nat → List Char → Option Nat
  | _, [] => none
  | 0, '}' :: _ => some 1
  | depth + 1, '}' :: rest => (bracesSize? depth rest).map (· + 1)
  | depth, '{' :: rest => (bracesSize? (depth + 1) rest).map (· + 1)
  | depth, _ :: rest => (bracesSize? depth rest).map (· + 1)

/-- The number of characters up to the bracket that closes an index; a blank breaks it off. -/
def indexSize : Nat → List Char → Nat
  | _, [] => 0
  | 0, ']' :: _ => 1
  | depth + 1, ']' :: rest => indexSize depth rest + 1
  | depth, '[' :: rest => indexSize (depth + 1) rest + 1
  | depth, char :: rest => if isPad char then 0 else indexSize depth rest + 1

/-- The number of characters of the member after an arrow, if a name in ASCII starts there. -/
def memberSize (chars : List Char) : Nat :=
  if chars.head?.any fun char => char == '_' || char.isAlpha then
    (chars.takeWhile Fragment.continuesIdent).length
  else
    0

/-- The number of characters of a variable with the one index or member that may follow it. -/
def variableSize (chars : List Char) : Nat :=
  let size := ((chars.drop 1).takeWhile Fragment.continuesIdent).length + 1
  match chars.drop size with
  | '[' :: rest => size + 1 + indexSize 0 rest
  | '-' :: '>' :: rest => if memberSize rest == 0 then size else size + 2 + memberSize rest
  | '?' :: '-' :: '>' :: rest => if memberSize rest == 0 then size else size + 3 + memberSize rest
  | _ => size

/-- The number of characters of the code at hand; there is none if its braces are not closed. -/
def codeSize? (chars : List Char) : Option Nat :=
  if atBraces chars then (bracesSize? 0 (chars.drop 2)).map (· + 2) else some (variableSize chars)

/-! ### Stretches of text -/

/-- A stretch of text up to the closing quote or to code; a backslash guards what follows it. -/
def quotedText? (mark : Char) : Bool → Cut → Option (Cut × Stop)
  | _, (_, []) => none
  | escaped, (before, char :: rest) =>
    if !escaped && (atVariable (char :: rest) || atBraces (char :: rest)) then
      some ((before, char :: rest), .code)
    else if char == '\\' then
      quotedText? mark (!escaped) (char :: before, rest)
    else if char == mark && !escaped then
      some ((before, char :: rest), .close 1)
    else
      quotedText? mark false (char :: before, rest)
termination_by _ cut => cut.2.length

/-- Whether the label that closes a heredoc is at hand. -/
def atLabel (label chars : List Char) : Bool :=
  label.isPrefixOf chars && !(chars.drop label.length).head?.any Char.isAlphanum

/--
A stretch of text of a heredoc: the rest of a line, unless code or the closing label comes first.
The label counts if only blanks stand before it in the stretch.
-/
def heredocText? (label : List Char) (interpolates : Bool) :
    Bool → Bool → Cut → Option (Cut × Stop)
  | _, _, (_, []) => none
  | _, _, (before, '\r' :: '\n' :: rest) => some (('\n' :: '\r' :: before, rest), .line)
  | escaped, blank, (before, char :: rest) =>
    if char == '\n' || char == '\r' then
      some ((char :: before, rest), .line)
    else if isPad char then
      heredocText? label interpolates escaped blank (char :: before, rest)
    else if interpolates && !escaped && (atVariable (char :: rest) || atBraces (char :: rest)) then
      some ((before, char :: rest), .code)
    else if interpolates && char == '\\' then
      heredocText? label interpolates true false (char :: before, rest)
    else if blank && atLabel label (char :: rest) then
      some ((before, char :: rest), .close label.length)
    else
      heredocText? label interpolates false false (char :: before, rest)
termination_by _ _ cut => cut.2.length

/-- The stretch of text at hand. -/
def Ending.text? (ending : Ending) (chars : List Char) : Option (Cut × Stop) :=
  match ending with
  | .quote mark => quotedText? mark false ([], chars)
  | .label name interpolates => heredocText? name interpolates false true ([], chars)

/-! ### Openings -/

/-- Names of labels start with a letter or an underscore. -/
def startsLabel (char : Char) : Bool :=
  char == '_' || char.isAlpha

/-- The end of the line at hand. -/
def lineEnd? (cut : Cut) : Option Cut :=
  match cut.2 with
  | '\n' :: _ => some (cut.advance 1)
  | '\r' :: '\n' :: _ => some (cut.advance 2)
  | _ => none

/-- The first line of a heredoc, and how it ends. -/
def heredoc? (chars : List Char) : Option (Cut × Ending) :=
  let opened := (Cut.advance 3 ([], chars)).advanceWhile isPad
  let quote := opened.2.head?.filter fun char => char == '"' || char == '\''
  let opened := if quote.isSome then opened.advance 1 else opened
  let label := opened.2.takeWhile Fragment.continuesIdent
  let labeled := opened.advance label.length
  let closed := if quote.isSome then labeled.advance 1 else labeled
  if label.head?.any startsLabel && (quote.isNone || labeled.2.head? == quote) then
    (lineEnd? closed).map fun cut => (cut, .label label (quote != some '\''))
  else
    none

/-- The opening of a string with parts, and how it ends. -/
def opening? (chars : List Char) : Option (Cut × Ending) :=
  match chars with
  | '<' :: '<' :: '<' :: _ => heredoc? chars
  | '"' :: rest =>
    if isLiteral rest then none else some (Cut.advance 1 ([], chars), .quote '"')
  | 'b' :: '"' :: rest | 'B' :: '"' :: rest =>
    if isLiteral rest then none else some (Cut.advance 2 ([], chars), .quote '"')
  | '\x60' :: _ => some (Cut.advance 1 ([], chars), .quote '\x60')
  | _ => none

end PhpAudit.Lexer
