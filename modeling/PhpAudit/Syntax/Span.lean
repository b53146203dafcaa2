/-
This file defines the byte range that every node of the syntax tree carries.
-/

namespace PhpAudit

/-- A byte range of a source, `stop` excluded. -/
structure Span where
  start : Nat
  stop : Nat
deriving DecidableEq, Inhabited, Repr

namespace Span

/-- The range of a node that was not read from a source. -/
def empty : Span := ⟨0, 0⟩

/-- Order by start, then by end. -/
def le (first second : Span) : Bool :=
  first.start < second.start || (first.start == second.start && first.stop ≤ second.stop)

end Span

end PhpAudit
