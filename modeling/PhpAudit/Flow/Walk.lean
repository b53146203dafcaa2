/-
This file defines the state of the walk over one body, and the steps that change it: reading and
writing variables, reporting, looking up callees. The walk itself is built from these steps.
-/

import PhpAudit.Flow.Block
import PhpAudit.Flow.ExitPoint
import PhpAudit.Issue
import PhpAudit.Options
import PhpAudit.Params

namespace PhpAudit

/-- What a walk reads and never changes. -/
structure Env where
  index : Index
  options : Options
  naming : Naming
  source : Source
  /-- The scopes around an arrow function, innermost first -/
  enclosing : List Scope := []
deriving Inhabited

/-- An assignment to a property of the class being declared. -/
structure PropertyAssignment where
  /-- Bare for a property of an object, with `$` for a static one -/
  name : String
  isStatic : Bool
  types : TypeSet
deriving DecidableEq, Inhabited

/-- The state of the walk over one body. -/
structure Walk where
  block : Block
  report : Report
  /-- Writes that were not read yet, by variable -/
  unread : Std.TreeMap String (List Span) := {}
  /-- Variables bound by reference, `global` or `static` -/
  shared : Std.TreeSet String := {}
  returnTypes : TypeSet := .empty
  returnsValue : Bool := false
  bareReturn : Bool := false
  /-- Unused variables are not reported -/
  toleratesUnused : Bool := false
  /-- Undefined variables are not reported -/
  toleratesUndefined : Bool := false
  isPure : Bool := true
  /-- What an arrow function touched, in order -/
  captured : List String := []
  assignments : List PropertyAssignment := []
deriving Inhabited

namespace Walk

/-- The walk of a body that starts with `scope`. -/
def start (scope : Scope) (report : Report) : Walk where
  block := { scope }
  report := report

/-! ### The block at hand -/

def scope (walk : Walk) : Scope :=
  walk.block.scope

def mapBlock (walk : Walk) (change : Block → Block) : Walk :=
  { walk with block := change walk.block }

def mapScope (walk : Walk) (change : Scope → Scope) : Walk :=
  walk.mapBlock (·.mapScope change)

def leave (walk : Walk) (exits : Exits) : Walk :=
  walk.mapBlock (·.leave exits)

/-- Runs `steps` with `block` in place of the block at hand, and gives both blocks back. -/
def within (walk : Walk) (block : Block) (steps : Walk → Walk) : Block × Walk :=
  let after := steps { walk with block }
  (after.block, { after with block := walk.block })

/-- Runs steps that may be skipped: they cannot leave the block. -/
def conditionally (walk : Walk) (steps : Walk → Walk) : Walk :=
  (steps walk).mapBlock fun block => { block with exits := walk.block.exits }

/-! ### Reporting -/

def issue (env : Env) (span : Span) (severity : Severity) (check message : String) (walk : Walk) :
    Walk :=
  { walk with report := walk.report.add env.source span severity check message }

/-- Runs `steps` without reporting. -/
def silently (walk : Walk) (steps : Walk → Walk) : Walk :=
  let after := steps { walk with report := { walk.report with enabled := false } }
  { after with report := { after.report with enabled := walk.report.enabled } }

def impure (walk : Walk) : Walk :=
  { walk with isPure := false }

/-! ### Variables -/

/-- Forgets the unread writes of a variable. -/
def untrack (env : Env) (name : String) (walk : Walk) : Walk :=
  { walk with
    unread := walk.unread.erase name
    captured := if env.enclosing.isEmpty then walk.captured else walk.captured ++ [name] }

/-- Exempts a variable from being unused. -/
def share (name : String) (walk : Walk) : Walk :=
  { walk with shared := walk.shared.insert name }

/-- Notes a write that should be read later; inside loops the order of reads is not known. -/
def track (env : Env) (name : String) (span : Span) (walk : Walk) : Walk :=
  if walk.shared.contains name then
    walk.untrack env name
  else if walk.block.insideLoop then
    walk
  else
    { walk with unread := walk.unread.insert name (walk.unread.getD name [] ++ [span]) }

/-- Reports a read of a variable that is meant to be unused. -/
def checkDiscard (env : Env) (name : String) (span : Span) (walk : Walk) : Walk :=
  if env.options.isDiscard name && !isSuperglobal name then
    walk.issue env span .error "discardVar" s!"Used var {name} that is supposed to be unused"
  else
    walk

/-- Reports a read of a variable that no path or not every path defines, once. -/
def readMissing (env : Env) (name : String) (span : Span) (walk : Walk) : Walk :=
  let possible := walk.scope.mayHave name || env.enclosing.any (·.mayHave name)
  let reported :=
    if possible then
      walk.issue env span .warning "undefined" s!"Variable might have not been defined: {name}"
    else
      walk.issue env span .error "undefined" s!"Undefined variable: {name}"
  reported.mapScope (·.add name (.named TypeName.undefined) true)

/-- A read of a variable. An arrow function may take it from the scopes around it. -/
def read (env : Env) (name : String) (span : Span) (walk : Walk) : Walk :=
  let walk := (walk.checkDiscard env name span).untrack env name
  if walk.scope.has name || isSuperglobal name || walk.toleratesUndefined then
    walk
  else
    match (env.enclosing.find? (·.has name)).bind (·.types? name) with
    | some types => walk.mapScope (·.add name types true)
    | none => walk.readMissing env name span

def readAll (env : Env) (names : List String) (span : Span) (walk : Walk) : Walk :=
  names.foldl (fun walk name => walk.read env name span) walk

/-- The unread writes in source order, one per place. -/
def pendingWrites (env : Env) (walk : Walk) : List (Span × String) :=
  let tracked := walk.unread.toList.filter fun (name, _) =>
    !(env.options.isDiscard name || isSuperglobal name)
  let writes := tracked.flatMap fun (name, spans) => spans.map fun span => (span, name)
  let sorted := writes.mergeSort fun first second => first.1.le second.1
  sorted.foldr (fun write kept =>
    match kept with
    | next :: rest => if write.1 = next.1 then write :: rest else write :: kept
    | [] => [write]) []

/-- Reports the unread writes at the end of a body. -/
def flushUnused (env : Env) (walk : Walk) : Walk :=
  let reported :=
    if walk.toleratesUnused then
      walk
    else
      (walk.pendingWrites env).foldl (fun walk (span, name) =>
        walk.issue env span .warning "unused"
          s!"Variable {name} is unused (use $_ to ignore this inspection)") walk
  { reported with unread := {} }

/-! ### Types and callees -/

/-- The type of an expression in the scope at hand, without the index. -/
def localType (env : Env) (walk : Walk) (expr : Expr) : TypeSet :=
  Typing.localType walk.scope env.naming expr

def typeOf (env : Env) (walk : Walk) (expr : Expr) : TypeSet :=
  Typing.typeOf env.index walk.scope env.naming expr

/-- The method of a class, once the index can tell. -/
def lookupMethod? (env : Env) (owner method : String) : Option FoundMethod :=
  if env.index.complete then Hierarchy.findMethod? env.index owner method else none

/-- The method of the first class among the types of an object that has it. -/
def lookupMethodOf? (env : Env) (walk : Walk) (object : Expr) (method : String) :
    Option FoundMethod :=
  if env.index.complete then
    ((walk.typeOf env object).names.filter TypeName.isClass).findSome? fun owner =>
      lookupMethod? env owner method
  else
    none

/-- A callee that never returns leaves the block of its caller too. -/
def leaveByCallee (env : Env) (exits : Exits) (walk : Walk) : Walk :=
  if !exits.isEmpty && env.index.complete then walk.leave exits else walk

def leaveByFound (env : Env) (found : Option FoundMethod) (walk : Walk) : Walk :=
  match found with
  | some found => walk.leaveByCallee env found.info.exits
  | none => walk

/-- Reports indexing of a value whose classes do not offer array access. -/
def checkArrayAccess (env : Env) (base : Expr) (span : Span) (walk : Walk) : Walk :=
  if env.index.complete && walk.report.enabled then
    let types := walk.typeOf env base
    let classes := types.names.filter TypeName.isClass
    if classes.isEmpty ||
        classes.any fun name => Hierarchy.instanceOf env.index name "\\ArrayAccess" then
      walk
    else
      walk.issue env span .notice "arrayAccess"
        s!"Array access to non-array type {types.render}"
  else
    walk

/-- Reports the first statement of the block that control cannot reach. -/
def checkDeadCode (env : Env) (stmt : Stmt) (walk : Walk) : Walk :=
  let exempt := match stmt.kind with
    | .breaks | .continues | .returns _ | .nop => true
    | .expr value =>
      match value.unparen.kind with
      | .exit .. | .throw _ => true
      | _ => false
    | _ => stmt.isDeclaration
  if walk.block.continues || walk.block.deadCodeReported || exempt then
    walk
  else
    (walk.mapBlock fun block => { block with deadCodeReported := true }).issue env stmt.span
      .warning "deadCode" "Unreachable code"

/-- Remembers an assignment to a property of the class around the code. -/
def noteAssignment (name : String) (isStatic : Bool) (types : TypeSet) (walk : Walk) : Walk :=
  { walk with assignments := walk.assignments ++ [{ name, isStatic, types }] }

/-! ### The end of a body -/

/--
How a body ends if it never returns: by throwing or by ending the program. A body that may return,
or that may go on, has no such end.
-/
def finalExits (walk : Walk) : Exits :=
  let exits := walk.block.exits
  let abnormal := exits ∩ (Exits.byDie ∪ Exits.byThrow)
  if exits == abnormal && !walk.block.possible.returns then abnormal else .none

end Walk

end PhpAudit
