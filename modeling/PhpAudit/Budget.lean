/-
This file defines the budget of source bytes that may be under analysis at once. A file is admitted
while the bytes in flight are within the budget, so one file may exceed it; the next one then waits.
-/

namespace PhpAudit

/-- A budget and the bytes in flight. -/
structure Budget where
  limit : Nat
  inFlight : Nat := 0
deriving DecidableEq, Inhabited, Repr

namespace Budget

/-- Whether the next file has to wait. -/
def isExceeded (budget : Budget) : Bool :=
  budget.limit < budget.inFlight

/-- Admits a file of `size` bytes, unless it has to wait. -/
def acquire? (budget : Budget) (size : Nat) : Option Budget :=
  if budget.isExceeded then none else some { budget with inFlight := budget.inFlight + size }

/-- Takes a file of `size` bytes out of flight. -/
def release (budget : Budget) (size : Nat) : Budget :=
  { budget with inFlight := budget.inFlight - size }

end Budget

end PhpAudit
