/-
This file defines the state of one block of code under analysis, and how the states at the ends of
several branches are joined.
-/

import PhpAudit.Flow.Exit
import PhpAudit.Scope

namespace PhpAudit

/-- The state of one block. -/
structure Block where
  scope : Scope
  /-- The exits taken on every path through the block so far; empty while control may go on -/
  exits : Exits := .none
  /-- The exits taken on at least one path -/
  possible : Exits := .none
  deadCodeReported : Bool := false
  insideLoop : Bool := false
deriving Inhabited

namespace Block

/-- The start of a branch: the scope is shared, the exits begin anew. -/
def child (block : Block) : Block where
  scope := block.scope
  insideLoop := block.insideLoop

/-- Records an exit, unless the block was left before. -/
def leave (block : Block) (exits : Exits) : Block :=
  if block.exits.isEmpty then
    { block with exits, possible := block.possible ∪ exits }
  else
    block

def mapScope (block : Block) (change : Scope → Scope) : Block :=
  { block with scope := change block.scope }

def addPossible (block : Block) (exits : Exits) : Block :=
  { block with possible := block.possible ∪ exits }

/-- Whether control goes on after the block. -/
def continues (block : Block) : Bool :=
  block.exits.isEmpty

/-- Gives variables that a test narrowed back what was known of them before. -/
def restoreImplicit (initial : Scope) (block : Block) : Block :=
  block.mapScope fun scope =>
    scope.entries.foldl (fun restored (name, info) =>
      if info.implicit then
        match initial.get? name with
        | some before => restored.put name before
        | none => restored
      else
        restored) scope

/-! ### Joining branches -/

/-- What the branches that go on say about one variable. -/
structure Joined where
  types : TypeSet := .empty
  /-- The number of branches that always define it -/
  defined : Nat := 0
deriving Inhabited

def joinVar (joined : Std.TreeMap String Joined) (name : String) (info : VarInfo) :
    Std.TreeMap String Joined :=
  let before := joined.getD name {}
  joined.insert name
    { types := before.types.append info.types
      defined := if info.always then before.defined + 1 else before.defined }

/-- Collects the variables of the branches that go on. -/
def joinBranches (branches : List Block) : Std.TreeMap String Joined :=
  (branches.filter (·.continues)).foldl (fun joined branch =>
    branch.scope.entries.foldl (fun joined (name, info) => joinVar joined name info) joined) {}

/--
Joins the branches that go on into the block. Of the paths that reach its end there are `links`; a
variable is always defined if that many branches always define it.
-/
def merge (branches : List Block) (links : Nat) (block : Block) : Block :=
  block.mapScope fun scope =>
    (joinBranches branches).toList.foldl (fun scope (name, joined) =>
      scope.add name joined.types (0 < links && joined.defined == links)) scope

/-- Takes over the exits of the branches; if no path goes on, the block is left. -/
def propagate (branches : List Block) (links : Nat) (block : Block) : Block :=
  let possible := branches.foldl (fun exits branch => exits ∪ branch.possible) block.possible
  let taken := branches.foldl (fun exits branch => exits ∪ branch.exits) Exits.none
  { block with
    possible
    exits := if links == 0 && !branches.isEmpty then block.exits ∪ taken else block.exits }

/-- Joins a branch that may not run at all. -/
def mergeOptional (block branch : Block) : Block :=
  (block.mapScope fun scope =>
    branch.scope.entries.foldl (fun scope (name, info) => scope.add name info.types false)
      scope).addPossible branch.possible

end Block

end PhpAudit
