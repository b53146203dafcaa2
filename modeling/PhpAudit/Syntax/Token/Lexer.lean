/-
This file cuts a source into tokens. Text outside the tags is one token; between the tags blanks and
comments are dropped. A string with parts is a row of tokens: its opening, stretches of text with the
tokens of the code between them, and its closing. There are no tokens if a string, a comment or a
heredoc is not closed, or if a character begins no token.
-/

import PhpAudit.Syntax.Token.Template

namespace PhpAudit.Lexer

/-- How the text at hand is read. -/
inductive Mode where
  /-- Outside the tags -/
  | text
  /-- Between the tags -/
  | script
  /-- Between the tags, where only these marks may follow; after the last of them code ends -/
  | ending (marks : List (List String))
  /-- After the code -/
  | data
deriving DecidableEq, Inhabited

/-! ### Text outside the tags -/

/-- The characters before the next tag, and the rest. -/
def untilTag : List Char → List Char × List Char
  | [] => ([], [])
  | '<' :: '?' :: rest => ([], '<' :: '?' :: rest)
  | char :: rest =>
    let (before, after) := untilTag rest
    (char :: before, after)

/-- The token at the start of a text, and how the text after it is read. -/
def textToken (chars : List Char) : (TokenKind × Cut) × Mode :=
  let start : Cut := ([], chars)
  if startsWithFolded "<?=" chars then ((.echoTag, start.advance 3), .script)
  else if startsWithFolded "<?php" chars then ((.openTag, start.advance 5), .script)
  else if startsWithFolded "<?" chars then ((.openTag, start.advance 2), .script)
  else
    let (before, rest) := untilTag chars
    ((.inlineText, (before.reverse, rest)), .text)

/-! ### The end of the code -/

/-- What must follow the word that ends the code. -/
def endingMarks : List (List String) :=
  [["("], [")"], [";", "?>"]]

/-- One of the marks, after blanks but not after comments. -/
def endingToken? (marks : List String) (chars : List Char) : Option (Nat × TokenKind × Cut) :=
  let blanks := chars.takeWhile isBlank
  let rest := chars.drop blanks.length
  (marks.find? fun mark => mark.toList.isPrefixOf rest).map fun mark =>
    (blanks.length, if mark == "?>" then .closeTag else .symbol, Cut.advance mark.length ([], rest))

/-! ### Tokens -/

/-- How the text after a token of a script is read. -/
def modeAfter (kind : TokenKind) (text : String) : Mode :=
  if kind == .closeTag then .text
  else if kind == .name && Text.lower text == "__halt_compiler" then .ending endingMarks
  else .script

/-- The token without parts at hand, the bytes skipped before it and the mode after it. -/
def next? (mode : Mode) (chars : List Char) : Option (Nat × (TokenKind × Cut) × Mode) :=
  match mode with
  | .text => let (token, mode) := textToken chars; some (0, token, mode)
  | .data | .ending [] => some (0, (.inlineText, (chars.reverse, [])), .data)
  | .ending (marks :: rest) =>
    (endingToken? marks chars).map fun (skipped, token) => (skipped, token, .ending rest)
  | .script =>
    (token? chars).map fun (kind, cut) =>
      (0, (kind, cut), modeAfter kind (String.ofList cut.1.reverse))

/-- What was read, as a token that starts at byte `offset`. -/
def tokenAt (kind : TokenKind) (offset : Nat) (before : List Char) : Token :=
  let text := before.reverse
  { kind, text := String.ofList text, span := ⟨offset, offset + Text.byteLength text⟩ }

mutual

/-- The tokens of the text at hand, which starts at byte `offset`. -/
def tokens? : Nat → Mode → Nat → List Char → Option (List Token)
  | 0, _, _, _ => none
  | fuel + 1, mode, offset, chars => do
    let (skipped, chars) ← if mode == .script then skip? (fuel + 1) 0 chars else some (0, chars)
    let start := offset + skipped
    if chars.isEmpty then
      return []
    match if mode == .script then opening? chars else none with
    | some (cut, ending) =>
      let opened := tokenAt .templateStart start cut.1
      let (parts, stop, rest) ← parts? fuel ending opened.span.stop cut.2
      return opened :: parts ++ (← tokens? fuel .script stop rest)
    | none =>
      let (skipped, (kind, cut), mode) ← next? mode chars
      let token := tokenAt kind (start + skipped) cut.1
      return token :: (← tokens? fuel mode token.span.stop cut.2)

/-- The tokens up to the end of a string with parts, and where the text after it starts. -/
def parts? : Nat → Ending → Nat → List Char → Option (List Token × Nat × List Char)
  | 0, _, _, _ => none
  | fuel + 1, ending, offset, chars => do
    let (cut, stop) ← ending.text? chars
    match stop with
    | .close size =>
      let closing := (cut.2.take size).reverse
      match ending with
      | .quote _ =>
        let text := tokenAt .templateText offset cut.1
        let closed := tokenAt .templateEnd text.span.stop closing
        return ([text, closed], closed.span.stop, cut.2.drop size)
      | .label .. =>
        let closed := tokenAt .templateEnd offset (closing ++ cut.1)
        return ([closed], closed.span.stop, cut.2.drop size)
    | .line =>
      let text := tokenAt .templateText offset cut.1
      let (parts, stop, rest) ← parts? fuel ending text.span.stop cut.2
      return (text :: parts, stop, rest)
    | .code =>
      let text := tokenAt .templateText offset cut.1
      let size ← codeSize? cut.2
      let code := cut.2.take size
      let inner ← tokens? fuel .script text.span.stop code
      let after := text.span.stop + Text.byteLength code
      let (parts, stop, rest) ← parts? fuel ending after (cut.2.drop size)
      return (text :: inner ++ parts, stop, rest)

end

/-- The first line of a script that names its interpreter, and the rest. -/
def interpreterLine : List Char → List Char × List Char
  | '#' :: '!' :: rest =>
    let line := rest.takeWhile (· != '\n')
    let rest := rest.drop line.length
    ('#' :: '!' :: (line ++ rest.take 1), rest.drop 1)
  | chars => ([], chars)

/-- The tokens of a source. -/
def scan? (source : String) : Option (List Token) :=
  let (line, rest) := interpreterLine source.toList
  let first := tokenAt .inlineText 0 line.reverse
  (tokens? (2 * rest.length + 2) .text first.span.stop rest).map fun tokens =>
    if line.isEmpty then tokens else first :: tokens

end PhpAudit.Lexer
