/-
This file defines file name patterns: `?` stands for a character, `*` for any text, `[a-z]` and
`[!a-z]` for one character of a class, and `**` as a whole path component for any directories.
-/

namespace PhpAudit

namespace Glob

/-- A member of a character class: the characters from `first` to `last`. -/
structure Range where
  first : Char
  last : Char
deriving DecidableEq, Inhabited, Repr

def Range.contains (range : Range) (char : Char) : Bool :=
  range.first ≤ char && char ≤ range.last

inductive Token where
  | char (char : Char)
  | anyChar
  /-- `*` -/
  | anyText
  /-- `**` as a whole component -/
  | anyDirectories
  | within (ranges : List Range)
  | except (ranges : List Range)
deriving DecidableEq, Inhabited, Repr

/-! ### Reading -/

/-- The members of a character class; a `-` between two characters makes a range. -/
def ranges : List Char → List Range
  | first :: '-' :: last :: rest => ⟨first, last⟩ :: ranges rest
  | char :: rest => ⟨char, char⟩ :: ranges rest
  | [] => []

/-- The characters before the first `]`, and those after it. -/
def untilBracket? : List Char → Option (List Char × List Char)
  | [] => none
  | ']' :: rest => some ([], rest)
  | char :: rest => (untilBracket? rest).map fun (inside, after) => (char :: inside, after)

/-- The class after `[`: its first member may be `]`. -/
def class? : List Char → Option (Token × List Char)
  | '!' :: first :: rest =>
    (untilBracket? rest).map fun (inside, after) => (.except (ranges (first :: inside)), after)
  | first :: rest =>
    if first == '!' then none
    else (untilBracket? rest).map fun (inside, after) => (.within (ranges (first :: inside)), after)
  | [] => none

/-- Adds `**`; a second one in a row says nothing new, except at the very start. -/
def addDirectories (tokens : List Token) : List Token :=
  match tokens with
  | .anyDirectories :: _ :: _ => tokens
  | _ => .anyDirectories :: tokens

/--
The tokens of a pattern, in reverse. `before` is the character before the text at hand. There are
none if `**` is not a whole component, if there are more stars, or if a class is not closed.
-/
def tokens? : Nat → Option Char → List Char → List Token → Option (List Token)
  | 0, _, _, _ => none
  | _ + 1, _, [], tokens => some tokens
  | fuel + 1, before, char :: rest, tokens =>
    match char with
    | '?' => tokens? fuel (some char) rest (.anyChar :: tokens)
    | '*' =>
      match rest.takeWhile (· == '*'), rest.dropWhile (· == '*') with
      | [], _ => tokens? fuel (some char) rest (.anyText :: tokens)
      | [_], after =>
        if before.all (· == '/') then
          match after with
          | [] => some (addDirectories tokens)
          | '/' :: after => tokens? fuel (some '/') after (addDirectories tokens)
          | _ => none
        else
          none
      | _, _ => none
    | '[' =>
      match class? rest with
      | some (token, after) => tokens? fuel (some ']') after (token :: tokens)
      | none => none
    | _ => tokens? fuel (some char) rest (.char char :: tokens)

/-! ### Matching -/

/-- A list and everything that remains after dropping elements from its front. -/
def suffixes : List Char → List (List Char)
  | [] => [[]]
  | char :: rest => (char :: rest) :: suffixes rest

/-- What remains after dropping whole directories, or everything. -/
def afterDirectories : List Char → List (List Char)
  | [] => [[]]
  | char :: rest => if char == '/' then rest :: afterDirectories rest else afterDirectories rest

def matchTokens : List Token → List Char → Bool
  | [], chars => chars.isEmpty
  | .anyText :: tokens, chars => (suffixes chars).any (matchTokens tokens)
  | .anyDirectories :: tokens, chars => (chars :: afterDirectories chars).any (matchTokens tokens)
  | .char expected :: tokens, char :: chars => char == expected && matchTokens tokens chars
  | .anyChar :: tokens, _ :: chars => matchTokens tokens chars
  | .within ranges :: tokens, char :: chars =>
    (ranges.any (·.contains char)) && matchTokens tokens chars
  | .except ranges :: tokens, char :: chars =>
    !(ranges.any (·.contains char)) && matchTokens tokens chars
  | .char _ :: _, [] | .anyChar :: _, [] | .within _ :: _, [] | .except _ :: _, [] => false

end Glob

/-- A pattern that whole file names are matched against. -/
structure Glob where
  tokens : List Glob.Token
deriving DecidableEq, Inhabited, Repr

namespace Glob

/-- Reads a pattern; there is none if the text is malformed. -/
def ofText? (text : String) : Option Glob :=
  let chars := text.toList
  (tokens? (chars.length + 1) none chars []).map fun tokens => ⟨tokens.reverse⟩

def accepts (glob : Glob) (text : String) : Bool :=
  matchTokens glob.tokens text.toList

end Glob

end PhpAudit
