/-
This file defines the ways in which control leaves a block, and sets of them.
-/

import PhpAudit.Text.Basic

namespace PhpAudit

/-- A set of ways to leave a block. -/
structure Exits where
  returns : Bool := false
  breaks : Bool := false
  continues : Bool := false
  throws : Bool := false
  dies : Bool := false
deriving DecidableEq, Inhabited, Repr

namespace Exits

def none : Exits := {}
def byReturn : Exits := { returns := true }
def byBreak : Exits := { breaks := true }
def byContinue : Exits := { continues := true }
def byThrow : Exits := { throws := true }
def byDie : Exits := { dies := true }

/-- The exits that leave only the innermost loop or switch. -/
def loopLocal : Exits := { breaks := true, continues := true }

def isEmpty (exits : Exits) : Bool :=
  exits == none

def union (first second : Exits) : Exits where
  returns := first.returns || second.returns
  breaks := first.breaks || second.breaks
  continues := first.continues || second.continues
  throws := first.throws || second.throws
  dies := first.dies || second.dies

instance : Union Exits := ⟨union⟩

def inter (first second : Exits) : Exits where
  returns := first.returns && second.returns
  breaks := first.breaks && second.breaks
  continues := first.continues && second.continues
  throws := first.throws && second.throws
  dies := first.dies && second.dies

instance : Inter Exits := ⟨inter⟩

def diff (first second : Exits) : Exits where
  returns := first.returns && !second.returns
  breaks := first.breaks && !second.breaks
  continues := first.continues && !second.continues
  throws := first.throws && !second.throws
  dies := first.dies && !second.dies

instance : SDiff Exits := ⟨diff⟩

/-- Whether every exit of `part`, which is not empty, is in `exits`. -/
def contains (exits part : Exits) : Bool :=
  !part.isEmpty && (exits ∩ part) == part

def meets (first second : Exits) : Bool :=
  !(first ∩ second).isEmpty

/-- The names of the exits, in the order of the fields. -/
def names (exits : Exits) : List String :=
  [(exits.returns, "return"), (exits.breaks, "break"), (exits.continues, "continue"),
    (exits.throws, "throw"), (exits.dies, "die")].filterMap fun (present, name) =>
      if present then some name else Option.none

def render (exits : Exits) : String :=
  Text.join "|" exits.names

end Exits

end PhpAudit
