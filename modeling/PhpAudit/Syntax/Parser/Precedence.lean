/-
This file ranks the operators by how tightly they bind.
-/

import PhpAudit.Syntax.Parser.Basic

namespace PhpAudit

/-- The levels of binding, from the loosest to the tightest. -/
inductive Precedence where
  | lowest
  | print
  | yieldFrom
  | yield
  | lowOr
  | lowXor
  | lowAnd
  | assignment
  | conditional
  | coalesce
  | or
  | and
  | bitOr
  | bitXor
  | bitAnd
  | equality
  | comparison
  | pipe
  | concat
  | shift
  | additive
  | multiplicative
  | unary
  | instanceOf
  | silence
  | power
  | clone
  | increment
  | reference
  | call
  | new
  | element
  | member
deriving DecidableEq, Inhabited, Repr

namespace Precedence

/-- The place of a level among all of them. -/
def rank : Precedence → Nat := Precedence.ctorIdx

/-- Whether an operator of the first level binds at least as tightly as the second asks for. -/
def reaches (level least : Precedence) : Bool :=
  least.rank ≤ level.rank

/-- Whether operators of a level group from the left; the others nest to the right. -/
def groupsLeft : Precedence → Bool
  | lowOr | lowXor | lowAnd | conditional | or | and | bitOr | bitXor | bitAnd | pipe | concat | shift
  | additive | multiplicative => true
  | _ => false

/-- The level of the operators that stand between two operands. -/
def ofInfix? : String → Option Precedence
  | "or" => some lowOr
  | "xor" => some lowXor
  | "and" => some lowAnd
  | "=" | ".=" | "??=" | "+=" | "-=" | "*=" | "/=" | "%=" | "**=" | "&=" | "|=" | "^=" | "<<=" | ">>=" =>
    some assignment
  | "?" => some conditional
  | "??" => some coalesce
  | "||" => some or
  | "&&" => some and
  | "|" => some bitOr
  | "^" => some bitXor
  | "&" => some bitAnd
  | "==" | "!=" | "<>" | "===" | "!==" | "<=>" => some equality
  | "<" | "<=" | ">" | ">=" => some comparison
  | "|>" => some pipe
  | "." => some concat
  | "<<" | ">>" => some shift
  | "+" | "-" => some additive
  | "*" | "/" | "%" => some multiplicative
  | "instanceof" => some instanceOf
  | "**" => some power
  | _ => none

/-- The level of the operators that follow their operand. -/
def ofPostfix? : String → Option Precedence
  | "++" | "--" => some increment
  | "(" => some call
  | "[" => some element
  | "->" | "?->" | "::" => some member
  | _ => none

/-- The level of the operators that precede their operand. -/
def ofPrefix? (token : Token) : Option Precedence :=
  if token.kind == .cast then
    some unary
  else
    match token.word with
    | "!" | "~" | "+" | "-" => some unary
    | "@" => some silence
    | "++" | "--" => some increment
    | "&" => some reference
    | _ => none

end Precedence

end PhpAudit
