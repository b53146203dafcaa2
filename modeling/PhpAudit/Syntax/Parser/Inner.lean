/-
This file ties the parts of the grammar together. Expressions hold statements and statements hold
expressions; every part is written against the parsers of one level deeper, so that the depth of
nesting bounds the recursion.
-/

import PhpAudit.Syntax.Parser.Precedence

namespace PhpAudit

/-- What an expression is built from: a value, or something that may also name a class. -/
inductive Operand where
  | value (expr : Expr)
  | name (text : String) (span : Span)
  /-- `self`, `static` or `parent` -/
  | relative (ref : ClassRef) (span : Span)

namespace Operand

/-- The operand as a value: a name by itself is a constant. -/
def expr : Operand → Expr
  | value expr => expr
  | name text span => ⟨Fragment.constant text, span⟩
  | relative _ span => ⟨.unmodeled [], span⟩

/-- The operand as a class. -/
def ref : Operand → ClassRef
  | value expr => .dynamic expr
  | name text _ => .named text
  | relative ref _ => ref

def span (operand : Operand) : Span :=
  operand.expr.span

end Operand

/-- The parsers of one level deeper. -/
structure Inner where
  /-- An operand whose operators bind at least as tightly as the level -/
  operand : Precedence → Parse Operand
  stmt : Parse Stmt

namespace Inner

/-- The parsers below the deepest level accept nothing. -/
def bottom : Inner where
  operand _ := failure
  stmt := failure

/-- An expression whose operators bind at least as tightly as the level. -/
def exprAt (inner : Inner) (level : Precedence) : Parse Expr := do
  return (← inner.operand level).expr

def expr (inner : Inner) : Parse Expr :=
  inner.exprAt .lowest

/-- An expression in parentheses. -/
def parenthesized (inner : Inner) : Parse Expr := do
  let _ ← Parse.expect "("
  let value ← inner.expr
  let _ ← Parse.expect ")"
  return value

/-- The statements of a block in braces. -/
def block (inner : Inner) : Parse (List Stmt) := do
  let _ ← Parse.expect "\x7b"
  let body ← Parse.manyUntil ["\x7d"] inner.stmt
  let _ ← Parse.expect "\x7d"
  return body

end Inner

end PhpAudit
