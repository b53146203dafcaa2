/-
This file reads fragments of source text that the tree keeps only in summary: the variables that a
fragment mentions, the operands of `unset`, and initial values of which only the text is known.
-/

import PhpAudit.Syntax.Tree
import PhpAudit.Text.Bytes

namespace PhpAudit.Fragment

/-! ### Identifiers -/

def isAscii (char : Char) : Bool :=
  char.toNat < 128

/-- Identifiers start with a letter, an underscore or any character outside ASCII. -/
def startsIdent (char : Char) : Bool :=
  char == '_' || char.isAlpha || !isAscii char

def continuesIdent (char : Char) : Bool :=
  char == '_' || char.isAlphanum || !isAscii char

/-- A name, possibly qualified. -/
def isName (text : String) : Bool :=
  let chars := text.toList
  match if chars.head? == some '\\' then chars.drop 1 else chars with
  | [] => false
  | first :: rest => startsIdent first && rest.all fun char => continuesIdent char || char == '\\'

/-! ### Variables mentioned in a fragment -/

/--
The names after every `$` of `chars`, in order. `name` holds, reversed, the part read so far of the
name at hand.
-/
def variableRuns : Option (List Char) → List Char → List (List Char)
  | none, [] => []
  | some name, [] => if name.length > 1 then [name.reverse] else []
  | none, char :: rest => variableRuns (if char == '$' then some ['$'] else none) rest
  | some name, char :: rest =>
    if if name.length > 1 then continuesIdent char else startsIdent char then
      variableRuns (some (char :: name)) rest
    else
      (if name.length > 1 then [name.reverse] else []) ++
        variableRuns (if char == '$' then some ['$'] else none) rest

/-- The members of a list without repetition, each at its first place. -/
def distinct (names : List String) : List String :=
  names.foldl (fun seen name => if seen.contains name then seen else seen ++ [name]) []

/-- The variables mentioned in `text`, each once, in order of appearance. -/
def mentioned (text : String) : List String :=
  distinct ((variableRuns none text.toList).map String.ofList)

/-- Blanks out each backslash together with the character after it. -/
def blankEscapes : List Char → List Char
  | [] => []
  | ['\\'] => [' ']
  | '\\' :: _ :: rest => ' ' :: ' ' :: blankEscapes rest
  | char :: rest => char :: blankEscapes rest

/-- The variables interpolated into a string literal or a heredoc; a nowdoc has none. -/
def interpolatedVariables (text : String) : List String :=
  let trimmed := Text.trimStart text
  if Text.startsWith trimmed "<<<'" || Text.startsWith trimmed "<<< '" then
    []
  else
    mentioned (String.ofList (blankEscapes text.toList))

/-! ### Operands of `unset` -/

/-- The text between the first `(` and the last `)`. -/
def insideParens? (text : String) : Option String :=
  let chars := text.toList
  let tail := (chars.dropWhile (· != '(')).drop 1
  match tail.reverse.dropWhile (· != ')') with
  | [] => none
  | _ :: inner => some (String.ofList inner.reverse)

/-- The plain variables among the comma separated operands of `unset(...)`. -/
def unsetNames (text : String) : List String :=
  match insideParens? text with
  | none => []
  | some inner =>
    ((Text.splitBy (· == ',') inner).map Text.trim).filter fun operand =>
      match operand.toList with
      | '$' :: rest => rest.all continuesIdent && !rest.isEmpty
      | _ => false

/-! ### Expressions known by their text -/

/-- A constant, or one of the three literals that are written like one. -/
def constant (name : String) : ExprKind :=
  match Text.withoutRoot (Text.lower name) with
  | "true" => .boolean true
  | "false" => .boolean false
  | "null" => .null
  | _ => .constant name

/-- `exit`, `die`, `print`, or a construct that the tree does not model. -/
def construct (text : String) : ExprKind :=
  let trimmed := Text.trimStart text
  let folded := Text.lower trimmed
  let reads := mentioned trimmed
  if Text.startsWith folded "exit" then .exit false reads
  else if Text.startsWith folded "die" then .exit true reads
  else if Text.startsWith folded "print" then .print reads
  else .unmodeled reads

/-- An expression of a form that the tree does not model. -/
def unmodeled (text : String) : ExprKind :=
  let trimmed := Text.trim text
  let folded := Text.lower trimmed
  if isName trimmed then constant trimmed
  else if Text.startsWith folded "new" then .unmodeled []
  else if Text.startsWith folded "exit" || Text.startsWith folded "die" ||
      Text.startsWith folded "print" then construct trimmed
  else .unmodeled (mentioned trimmed)

private def isSign (char : Char) : Bool :=
  char == '-' || char == '+'

/-- A number that is neither hexadecimal nor binary and has a point or an exponent. -/
private def isFloatText (digits : String) : Bool :=
  let radix := ["0x", "0X", "0b", "0B"].any (Text.startsWith digits)
  !radix && digits.toList.any fun char => char == '.' || char == 'e' || char == 'E'

/-- An array literal of which only the emptiness is known. -/
private def arrayText (text : String) (span : Span) : ExprKind :=
  let inner := Text.trim (Text.trimStartWhile Char.isAlpha text)
  let size := inner.utf8ByteSize
  let content := Text.slice inner 1 (size - 1)
  if (Text.trim content).isEmpty then .array []
  else .array [.entry none ⟨.unmodeled [], span⟩ false false]

private def newText (text : String) : ExprKind :=
  let rest := Text.trimStart (Text.slice text 4 text.utf8ByteSize)
  let name := String.ofList
    (rest.toList.takeWhile fun char => continuesIdent char || char == '\\')
  if name.isEmpty then .unmodeled [] else .new (.named name) []

private def classConstantText (owner name : String) : ExprKind :=
  let owner := Text.trim owner
  let ref : ClassRef := match Text.lower owner with
    | "self" => .self
    | "static" => .static
    | "parent" => .parent
    | _ => .named owner
  let name := Text.trim name
  if isName name then .classConstant ref name else .unmodeled []

private def literalKind (text : String) (span : Span) : ExprKind :=
  let folded := Text.lower text
  if text.isEmpty then
    .unmodeled []
  else if Text.startsWith text "'" then
    let inner := Text.trimEndWhile (· == '\'') (Text.trimStartWhile (· == '\'') text)
    .string (if Text.contains inner "\\" then none else some inner)
  else if Text.startsWith text "\"" || Text.startsWith text "<<<" then
    .string none
  else if folded == "true" || folded == "false" || folded == "null" then
    constant folded
  else
    let digits := Text.trimStartWhile isSign text
    if digits.toList.head?.any fun char => char.isDigit || char == '.' then
      if isFloatText digits then .float else .integer
    else if Text.startsWith text "[" || Text.startsWith folded "array(" ||
        Text.startsWith folded "array (" then
      arrayText text span
    else if Text.startsWith folded "new " then
      newText text
    else
      match Text.splitOnce? text "::" with
      | some (owner, name) => classConstantText owner name
      | none => if isName text then .constant text else .unmodeled []

/--
The initial value written as `text`: scalars, arrays, `new`, constants and class constants are
recognized, anything else is not modeled.
-/
def literal (text : String) (span : Span) : Expr :=
  ⟨literalKind (Text.trim text) span, span⟩

/-! ### Initial values -/

/-- The number of bytes before the first character accepted by `stop`, if there is one. -/
def bytesBefore? (stop : Char → Bool) (chars : List Char) : Option Nat :=
  if chars.any stop then some (Text.byteLength (chars.takeWhile fun char => !stop char)) else none

/--
The offset of the first `,` or `;` outside quotes and brackets. `offset` counts the bytes so far,
`depth` the open brackets.
-/
def valueEnd? (offset : Nat) (depth : Int) (quote : Option Char) : List Char → Option Nat
  | [] => none
  | char :: rest =>
    let next := offset + char.utf8Size
    match quote with
    | some closing => valueEnd? next depth (if char == closing then none else quote) rest
    | none =>
      if char == '\'' || char == '"' then valueEnd? next depth (some char) rest
      else if ['(', '[', '{'].contains char then valueEnd? next (depth + 1) none rest
      else if [')', ']', '}'].contains char then valueEnd? next (depth - 1) none rest
      else if (char == ',' || char == ';') && depth ≤ 0 then some offset
      else valueEnd? next depth none rest

/--
The initial value after the first `=` of `text`, which starts at byte `start` of the source. It ends
at the separator before the next declaration; the search for that begins as many characters into the
text as the sign lies bytes into it.
-/
def initializer? (text : String) (start : Nat) : Option Expr :=
  (bytesBefore? (· == '=') text.toList).map fun sign =>
    let skipped := text.toList.take (sign + 1)
    let stop := (valueEnd? (Text.byteLength skipped) 0 none (text.toList.drop (sign + 1))).getD
      text.utf8ByteSize
    literal (Text.slice text (sign + 1) stop) ⟨start + sign + 1, start + stop⟩

/-- The value after the first `=` of `text`, up to its end. -/
def valueAfterSign? (text : String) (start : Nat) : Option Expr :=
  (bytesBefore? (· == '=') text.toList).map fun sign =>
    literal (Text.slice text (sign + 1) text.utf8ByteSize)
      ⟨start + sign + 1, start + text.utf8ByteSize⟩

end PhpAudit.Fragment
