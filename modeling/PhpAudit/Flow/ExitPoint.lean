/-
This file finds the places at which a list of statements is left.
-/

import PhpAudit.Flow.Exit
import PhpAudit.Syntax.Traversal

namespace PhpAudit

/-- A place at which a body is left, and the word that leaves it. -/
structure ExitPoint where
  span : Span
  word : String
deriving DecidableEq, Inhabited, Repr

namespace ExitPoint

/-- Collects the exits of the given kinds; nested functions and closures are not entered. -/
def visitor (exits : Exits) : Visitor (List ExitPoint) where
  onStmt stmt points :=
    match stmt.kind with
    | .returns _ => (if exits.returns then points ++ [⟨stmt.span, "return"⟩] else points, true)
    | _ => (points, true)
  onExpr expr points :=
    match expr.kind with
    | .throw _ => (if exits.throws then points ++ [⟨expr.span, "throw"⟩] else points, true)
    | .exit die _ =>
      (if exits.dies then points ++ [⟨expr.span, if die then "die" else "exit"⟩] else points, true)
    | _ => (points, true)

/-- The exits of the given kinds in `body`, in source order. -/
def find (body : List Stmt) (exits : Exits) : List ExitPoint :=
  (visitor exits).stmts body []

end ExitPoint

end PhpAudit
