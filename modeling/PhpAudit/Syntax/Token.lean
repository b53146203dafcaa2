/-
This file defines the tokens of a source.
-/

import PhpAudit.Syntax.Span
import PhpAudit.Text.Basic

namespace PhpAudit

inductive TokenKind where
  /-- `<?php` or `<?` -/
  | openTag
  /-- `<?=` -/
  | echoTag
  /-- `?>` -/
  | closeTag
  /-- Text outside the tags -/
  | inlineText
  /-- `$name` -/
  | variable
  /-- A name, possibly qualified, or a keyword -/
  | name
  | integer
  | float
  /-- A quoted string; its value is not known if its bytes are no text -/
  | string (value : Option String)
  /-- The opening of a string with parts: a quote, a backtick or the first line of a heredoc -/
  | templateStart
  /-- Literal text between the parts of such a string -/
  | templateText
  /-- The closing of such a string -/
  | templateEnd
  /-- `(int)` and the like -/
  | cast
  /-- An operator or another mark -/
  | symbol
deriving DecidableEq, Inhabited, Repr

/-- A token with its text and its range. -/
structure Token where
  kind : TokenKind
  text : String
  span : Span
deriving DecidableEq, Inhabited, Repr

namespace Token

/--
What the grammar compares: a mark as it is and a name in small letters, since keywords are read in
any case. Other tokens have no word.
-/
def word (token : Token) : String :=
  match token.kind with
  | .symbol => token.text
  | .name => Text.lower token.text
  | _ => ""

end Token

end PhpAudit
