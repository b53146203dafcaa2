/-
This file lists the operators of the language and reads them from their source text. A text that is
no operator of its kind, for instance because a comment stands beside the operator, reads as the
kind's catch-all.
-/

import PhpAudit.Text.Basic

namespace PhpAudit

/-- How an assignment combines the target with the value. -/
inductive AssignOp where
  | assign
  | concat
  | coalesce
  /-- `+=`, `-=`, `*=`, `/=`, `%=`, `**=` -/
  | arithmetic
  /-- `&=`, `|=`, `^=`, `<<=`, `>>=`, and every text that is none of the others -/
  | bitwise
deriving DecidableEq, Inhabited, Repr

namespace AssignOp

def ofText : String → AssignOp
  | "=" => assign
  | ".=" => concat
  | "??=" => coalesce
  | "+=" | "-=" | "*=" | "/=" | "%=" | "**=" => arithmetic
  | _ => bitwise

end AssignOp

inductive BinaryOp where
  | add
  | sub
  | mul
  | div
  | mod
  | pow
  | concat
  | bitAnd
  | bitOr
  | bitXor
  | shiftLeft
  | shiftRight
  /-- `&&` and `and` -/
  | and
  /-- `||` -/
  | or
  /-- The low precedence `or` -/
  | lowOr
  | xor
  | equal
  | notEqual
  | identical
  | notIdentical
  | less
  | lessEqual
  | greater
  | greaterEqual
  | spaceship
  | coalesce
  | other
deriving DecidableEq, Inhabited, Repr

namespace BinaryOp

private def ofFolded : String → BinaryOp
  | "+" => add
  | "-" => sub
  | "*" => mul
  | "/" => div
  | "%" => mod
  | "**" => pow
  | "." => concat
  | "&" => bitAnd
  | "|" => bitOr
  | "^" => bitXor
  | "<<" => shiftLeft
  | ">>" => shiftRight
  | "&&" | "and" => and
  | "||" => or
  | "or" => lowOr
  | "xor" => xor
  | "==" => equal
  | "!=" | "<>" => notEqual
  | "===" => identical
  | "!==" => notIdentical
  | "<" => less
  | "<=" => lessEqual
  | ">" => greater
  | ">=" => greaterEqual
  | "<=>" => spaceship
  | "??" => coalesce
  | _ => other

/-- Reads an operator; the word operators are read in any case. -/
def ofText (text : String) : BinaryOp :=
  ofFolded (Text.lower text)

/-- The operators whose value is a truth value and that evaluate both operands. -/
def isComparison : BinaryOp → Bool
  | equal | notEqual | identical | notIdentical | less | lessEqual | greater | greaterEqual | xor =>
    true
  | _ => false

/-- The operators on numbers. -/
def isArithmetic : BinaryOp → Bool
  | add | sub | mul | div | mod | pow => true
  | _ => false

/-- The operators whose value is always an integer. -/
def isInteger : BinaryOp → Bool
  | bitAnd | bitOr | bitXor | shiftLeft | shiftRight | spaceship => true
  | _ => false

/-- The operators that may leave their right operand unevaluated and yield a truth value. -/
def isLogical : BinaryOp → Bool
  | and | or | lowOr => true
  | _ => false

end BinaryOp

inductive UnaryOp where
  | not
  | negate
  | plus
  | bitNot
  | preIncrement
  | preDecrement
  | postIncrement
  | postDecrement
  | silence
  | reference
  /-- `(int)`, `(string)`, ... with the name of the target type -/
  | cast (target : String)
  | other
deriving DecidableEq, Inhabited, Repr

namespace UnaryOp

/-- The type a cast names, under any of its spellings. -/
def castTarget? : String → Option String
  | "int" | "integer" => some "int"
  | "bool" | "boolean" => some "bool"
  | "float" | "double" | "real" => some "float"
  | "string" | "binary" => some "string"
  | "array" => some "array"
  | "object" => some "object"
  | "unset" => some "null"
  | _ => none

/-- Reads the text between the start of an operation and its operand. -/
def ofLeading (text : String) : UnaryOp :=
  match Text.trim text with
  | "!" => not
  | "-" => negate
  | "+" => plus
  | "~" => bitNot
  | "++" => preIncrement
  | "--" => preDecrement
  | "@" => silence
  | "&" => reference
  | trimmed =>
    if Text.startsWith trimmed "(" && Text.endsWith trimmed ")" then
      let inner := (trimmed.toList.drop 1).dropLast
      match castTarget? (Text.lower (Text.without Text.isBlank (String.ofList inner))) with
      | some target => cast target
      | none => other
    else
      other

/-- Reads the text between an operand and the end of the operation. -/
def ofTrailing (text : String) : UnaryOp :=
  match Text.trim text with
  | "++" => postIncrement
  | "--" => postDecrement
  | _ => other

end UnaryOp

end PhpAudit
