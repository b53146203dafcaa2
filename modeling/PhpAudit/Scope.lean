/-
This file keeps what is known about the variables of one region of code: their types, and whether
every path to the current point defines them.
-/

import Std.Data.TreeMap
import PhpAudit.Types.Set

namespace PhpAudit

/-- What is known about one variable. -/
structure VarInfo where
  types : TypeSet
  /-- Defined on every path to the current point -/
  always : Bool
  /-- Assignments widen the type instead of replacing it -/
  pinned : Bool := false
  /-- Introduced by a test and not by the code -/
  implicit : Bool := false
deriving DecidableEq, Inhabited

/-- The variables of one region, by name with `$`. -/
structure Scope where
  vars : Std.TreeMap String VarInfo := {}
  /-- The region is the body of a method called on an object -/
  inMethod : Bool := false
deriving Inhabited

namespace Scope

def empty : Scope := {}

/-! ### Questions -/

def get? (scope : Scope) (name : String) : Option VarInfo :=
  scope.vars[name]?

/-- Defined on every path. -/
def has (scope : Scope) (name : String) : Bool :=
  (scope.get? name).any (·.always)

/-- Defined on some path. -/
def mayHave (scope : Scope) (name : String) : Bool :=
  (scope.get? name).isSome

def hasImplicit (scope : Scope) (name : String) : Bool :=
  (scope.get? name).any (·.implicit)

def types? (scope : Scope) (name : String) : Option TypeSet :=
  (scope.get? name).map (·.types)

/-- The variables in increasing order of their names. -/
def entries (scope : Scope) : List (String × VarInfo) :=
  scope.vars.toList

/-! ### Changes -/

/-- Stores `info` as it is. -/
def put (scope : Scope) (name : String) (info : VarInfo) : Scope :=
  { scope with vars := scope.vars.insert name info }

/-- Replaces what is known about `name`, if anything is. -/
def update (scope : Scope) (name : String) (change : VarInfo → VarInfo) : Scope :=
  match scope.get? name with
  | some info => scope.put name (change info)
  | none => scope

/-- Adds a variable or widens it: types are joined and definedness only ever turns on. -/
def add (scope : Scope) (name : String) (types : TypeSet) (always : Bool) : Scope :=
  match scope.get? name with
  | some info =>
    scope.put name { info with types := info.types.union types, always := info.always || always }
  | none => scope.put name { types, always }

/-- Adds a variable that a test introduced. -/
def addImplicit (scope : Scope) (name : String) (types : TypeSet) : Scope :=
  (scope.add name types true).update name fun info => { info with implicit := true }

/-- Adds a variable whose type later assignments only widen. -/
def addPinned (scope : Scope) (name : String) (types : TypeSet) : Scope :=
  (scope.add name types true).update name fun info => { info with pinned := true }

/-- Assigns to a variable: the old type is dropped unless the variable is pinned. -/
def assign (scope : Scope) (name : String) (types : TypeSet) (always : Bool) : Scope :=
  match scope.get? name with
  | some info =>
    if info.pinned then scope.put name { info with types := info.types.union types }
    else scope.put name { types, always }
  | none => scope.put name { types, always }

/-- Narrows a variable for as long as a tested region lasts. -/
def narrow (scope : Scope) (name : String) (types : TypeSet) : Scope :=
  scope.put name { types, always := true, implicit := true }

def erase (scope : Scope) (name : String) : Scope :=
  { scope with vars := scope.vars.erase name }

end Scope

end PhpAudit
