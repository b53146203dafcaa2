/-
This file defines parsers: functions from the tokens at hand to a value and the tokens after it. A
parser that fails leaves no trace, so alternatives can be tried one after another.
-/

import PhpAudit.Syntax.Fragment
import PhpAudit.Syntax.Token
import PhpAudit.Text.Bytes

namespace PhpAudit

/-- The tokens at hand, and the offset at which the last token that was taken ends. -/
structure Cursor where
  tokens : List Token
  stop : Nat := 0
deriving Inhabited

/-- What a parser can always look at: the source, and how many tokens it has. -/
structure Given where
  source : String
  size : Nat
deriving Inhabited

/-- A parser with the source at hand, for the parts of the tree that are read from its text. -/
abbrev Parse := ReaderT Given (StateT Cursor Option)

namespace Parse

/-! ### Tokens -/

/-- The token at hand, or the one so many places after it. -/
def peek? (ahead : Nat) : Parse (Option Token) := do
  return (← get).tokens[ahead]?

/-- The word of the token at hand, or of the one so many places after it. -/
def word (ahead : Nat) : Parse String := do
  return ((← peek? ahead).map Token.word).getD ""

/-- Whether the token at hand is of a kind. -/
def isKind (ahead : Nat) (kind : TokenKind) : Parse Bool := do
  return (← peek? ahead).any (·.kind == kind)

/-- Takes a token; fails at the end of the source. -/
def take : Parse Token := do
  match (← get).tokens with
  | token :: rest =>
    set ({ tokens := rest, stop := token.span.stop } : Cursor)
    return token
  | [] => failure

/-- Whether the token at hand is one of the words. -/
def isAt (words : List String) : Parse Bool := do
  let found ← word 0
  return found != "" && words.contains found

/-- Takes the token with this word; fails if another one is at hand. -/
def expect (expected : String) : Parse Token := do
  if ← isAt [expected] then take else failure

/-- Takes the token with this word if it is at hand. -/
def accept? (expected : String) : Parse Bool := do
  if ← isAt [expected] then
    let _ ← take
    return true
  else
    return false

/-- Takes a token of a kind; fails if another one is at hand. -/
def expectKind (kind : TokenKind) : Parse Token := do
  if ← isKind 0 kind then take else failure

/-! ### Ranges -/

/-- The offset at which the token at hand starts. -/
def here : Parse Nat := do
  match ← peek? 0 with
  | some token => return token.span.start
  | none => return (← get).stop

/-- The range from an offset to the last token that was taken. -/
def since (start : Nat) : Parse Span := do
  return ⟨start, (← get).stop⟩

/-- The text of the source between two offsets. -/
def textBetween (start stop : Nat) : Parse String := do
  return Text.cut (← read).source start stop

/-- The text of a range. -/
def textOf (span : Span) : Parse String :=
  textBetween span.start span.stop

/-! ### Sequences -/

variable {Value : Type}

/-- Takes items for as long as there are some; `fuel` bounds their number. -/
def manyUpTo (item? : Parse (Option Value)) : Nat → Parse (List Value)
  | 0 => failure
  | fuel + 1 => do
    match ← item? with
    | some value => return value :: (← manyUpTo item? fuel)
    | none => return []

/-- More than the number of tokens at hand. -/
def plenty : Parse Nat := do
  return (← read).size + 1

/-- Takes items for as long as there are some. Each item takes at least one token. -/
def many (item? : Parse (Option Value)) : Parse (List Value) := do
  manyUpTo item? (← plenty)

/-- Items up to one of the words, which is left at hand. -/
def manyUntil (ends : List String) (item : Parse Value) : Parse (List Value) :=
  many do
    if ← isAt ends then return none else return some (← item)

/-- Items separated by commas, possibly none; a comma may stand after the last one. -/
def listUntil (atEnd : Parse Bool) (item : Parse Value) : Parse (List Value) :=
  many do
    if ← atEnd then
      return none
    else
      let value ← item
      if !(← atEnd) then
        let _ ← expect ","
      return some value

/-- Items up to the closing word, which is taken; a comma may stand after the last one. -/
def commaList (close : String) (item : Parse Value) : Parse (List Value) := do
  let items ← listUntil (isAt [close]) item
  let _ ← expect close
  return items

/-- One item or several, separated by commas. -/
def commaSeparated (item : Parse Value) : Parse (List Value) := do
  let first ← item
  let rest ← many do
    if ← accept? "," then return some (← item) else return none
  return first :: rest

/-- The item if its first word is at hand. -/
def optionally (first : String) (item : Parse Value) : Parse (Option Value) := do
  if ← isAt [first] then return some (← item) else return none

/-! ### Words of the language -/

/-- Words that may not stand for a name where a value is expected. -/
def reserved : List String :=
  ["abstract", "and", "array", "as", "break", "callable", "case", "catch", "class", "clone", "const",
    "continue", "declare", "default", "do", "echo", "else", "elseif", "empty", "enddeclare", "endfor",
    "endforeach", "endif", "endswitch", "endwhile", "eval", "exit", "die", "extends", "final",
    "finally", "fn", "for", "foreach", "function", "global", "goto", "if", "implements", "include",
    "include_once", "instanceof", "insteadof", "interface", "isset", "namespace", "new", "or", "print",
    "private", "private(set)", "protected", "protected(set)", "public", "public(set)", "require",
    "require_once", "return", "static", "switch", "throw", "trait", "try", "unset", "use", "var",
    "while", "xor", "yield", "__halt_compiler"]

/-- Words with a meaning that may still stand for a name. -/
def softReserved : List String :=
  ["enum", "list", "match", "readonly", "self", "parent", "true", "false", "null", "from"]

/-- Constants whose value depends on where they stand. -/
def magicNames : List String :=
  ["__line__", "__file__", "__dir__", "__class__", "__trait__", "__method__", "__function__",
    "__property__", "__namespace__"]

/-- Words that have a meaning of their own. -/
def isKeyword (word : String) : Bool :=
  reserved.contains word || softReserved.contains word || magicNames.contains word

def isUnqualified (text : String) : Bool :=
  !text.toList.contains '\\'

/-- Whether a token is a single word, with a meaning of its own or not. -/
def isWord (token : Token) : Bool :=
  token.kind == .name && isUnqualified token.text

/-- Whether a token is a name without a namespace that can mark a place. -/
def isLabel (token : Token) : Bool :=
  isWord token && (!isKeyword token.word || softReserved.contains token.word)

/-- A single word: declared names, members and labels may be any word. -/
def identifier : Parse Token := do
  let token ← take
  if isWord token then return token else failure

/-- A name that may be qualified. -/
def qualifiedName : Parse Token :=
  expectKind .name

/-- The end of a statement: `;`, or a closing tag with the opening tag that follows it at once. -/
def terminator : Parse Unit := do
  if ← isKind 0 .closeTag then
    let _ ← take
    if ← isKind 0 .openTag then
      let _ ← take
  else
    let _ ← expect ";"

/-- Whether a statement can end at the token at hand. -/
def atTerminator : Parse Bool := do
  return (← isAt [";"]) || (← isKind 0 .closeTag)

end Parse

end PhpAudit
