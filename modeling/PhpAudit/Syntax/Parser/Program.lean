/-
This file parses whole sources.
-/

import PhpAudit.Syntax.Parser.Statement
import PhpAudit.Syntax.Token.Lexer

namespace PhpAudit

namespace Inner

/-- The parsers that look at most `depth` levels deep. -/
def ofDepth : Nat → Inner
  | 0 => bottom
  | depth + 1 =>
    let inner := ofDepth depth
    { operand := inner.operandAt, stmt := inner.stmtAt }

end Inner

namespace Program

/-- How deep statements and expressions may nest. -/
def nestingLimit : Nat := 512

/-- The statements of a source; there are none if it is no program. -/
def parse? (source : String) : Option (List Stmt) := do
  let tokens ← Lexer.scan? source
  let inner := Inner.ofDepth nestingLimit
  let statements : Parse (List Stmt) := Parse.many do
    if (← Parse.peek? 0).isNone then return none else return some (← inner.stmt)
  let (list, _) ← (statements.run { source, size := tokens.length }).run { tokens }
  return list

end Program

end PhpAudit
