/-
This file folds the initial values of constants: literals, in parentheses or with a minus sign,
have a value; anything else has none.
-/

import PhpAudit.Issue
import PhpAudit.Symbol.Info
import PhpAudit.Syntax.Number

namespace PhpAudit.ConstValue

private def integerIn? (radix : Nat) (text : String) : Option ConstValue :=
  (Number.integer? radix text.toList).map .integer

/--
The value of a number literal without separators. A leading zero makes it octal; a decimal integer
that does not fit 64 bits is a float.
-/
def ofNumber? (text : String) : Option ConstValue :=
  let folded := Text.lower text
  match Text.afterStart? folded "0x", Text.afterStart? folded "0b", Text.afterStart? folded "0o" with
  | some digits, _, _ => integerIn? 16 digits
  | _, some digits, _ => integerIn? 2 digits
  | _, _, some digits => integerIn? 8 digits
  | none, none, none =>
    let chars := folded.toList
    if 1 < chars.length && chars.head? == some '0' && chars.all Char.isDigit then
      integerIn? 8 (String.ofList (chars.drop 1))
    else
      integerIn? 10 folded <|> (Number.float? folded).map .float

/-- The value with the opposite sign, for numbers. -/
def negate? : ConstValue → Option ConstValue
  | integer value => some (integer (-value))
  | float value => some (float (-value))
  | string _ | boolean _ => none

/--
The value of an initializer. The text of a number is read from the source at `span`, the range of
the expression with the parentheses around it.
-/
def fold? (source : Source) (span : Span) : Expr → Option ConstValue
  | ⟨.paren inner, _⟩ => fold? source span inner
  | ⟨.string (some value), _⟩ => some (string value)
  | ⟨.boolean value, _⟩ => some (boolean value)
  | ⟨.integer, _⟩ | ⟨.float, _⟩ =>
    (source.slice? span).bind fun text =>
      ofNumber? (Text.without (· == '_') (Text.trim text))
  | ⟨.unary .negate operand, _⟩ => (fold? source operand.span operand).bind negate?
  | _ => none

/-- The value of an initializer, if it is a literal. -/
def ofExpr? (source : Source) (expr : Expr) : Option ConstValue :=
  fold? source expr.span expr

end PhpAudit.ConstValue
