/-
This file refines what is known about variables by the outcome of a test. A test is walked once, in
the block of its true outcome; `isset($x)` and `!empty($x)` define `$x` there with a marker type,
and `$x instanceof C` narrows `$x` in the blocks of both outcomes.
-/

import PhpAudit.Flow.Walk

namespace PhpAudit

/-- The type of a variable that is known to be set only because a test said so. -/
def issetMarker (name : String) : String :=
  "isset_" ++ name

/-- The variable at the root of an element or property: `isset($x['k'])` tells that `$x` is set. -/
def Expr.rootName? : Expr → Option String
  | ⟨.paren inner, _⟩ => inner.rootName?
  | ⟨.element base _, _⟩ => base.rootName?
  | ⟨.property object _ _, _⟩ => object.rootName?
  | ⟨.var name, _⟩ => some name
  | _ => none

/-- Whether a condition is built from `instanceof` tests only. -/
def Expr.isNarrowing : Expr → Bool
  | ⟨.paren inner, _⟩ => inner.isNarrowing
  | ⟨.unary .not operand, _⟩ => operand.isNarrowing
  | ⟨.binary .and left right, _⟩ | ⟨.binary .or left right, _⟩ =>
    left.isNarrowing && right.isNarrowing
  | ⟨.instanceOf _ _, _⟩ => true
  | _ => false

/-- The state of the walk over a condition: the walk is in the block of the true outcome. -/
structure Guard where
  walk : Walk
  /-- The block of the false outcome -/
  otherwise : Block
  /-- Variables that a test introduced -/
  markers : List String
deriving Inhabited

namespace Guard

/-- The start of a condition. -/
def start (walk : Walk) (markers : List String) : Guard where
  walk := { walk with block := walk.block.child }
  otherwise := walk.block.child
  markers := markers

def mapWalk (guard : Guard) (steps : Walk → Walk) : Guard :=
  { guard with walk := steps guard.walk }

/-- Runs steps that may be skipped: they cannot leave the block. -/
def conditionally (guard : Guard) (steps : Guard → Guard) : Guard :=
  (steps guard).mapWalk (·.mapBlock fun block => { block with exits := guard.walk.block.exits })

/-- Defines the variable at the root of `guarded` in the true outcome, unless it is defined. -/
def mark (guard : Guard) (guarded : Expr) : Guard :=
  match guarded.rootName? with
  | none => guard
  | some name =>
    if guard.walk.scope.has name then
      guard
    else
      { guard with
        walk := guard.walk.mapScope (·.add name (.named (issetMarker name)) true)
        markers :=
          if guard.markers.contains name then guard.markers else guard.markers ++ [name] }

/-- `!empty($x)` tells that `$x` is set. -/
def markNotEmpty (guard : Guard) (negated : Bool) (operand : Expr) : Guard :=
  match operand.unparen.kind with
  | .isEmpty inner => if negated then guard else guard.mark inner
  | _ => guard

def markIsset (guard : Guard) (negated : Bool) (values : List Expr) : Guard :=
  if negated then guard else values.foldl mark guard

/--
Narrows `name` by a test for the class `tested`. Within `&&` and `||` a variable that an earlier
test narrowed is widened again by what this test allows.
-/
def narrow (guard : Guard) (name tested : String) (negated inLogic : Bool) : Guard :=
  let known := (guard.otherwise.scope.types? name).getD .empty
  let is := TypeSet.named tested
  let isNot := known.filter fun value => !value.isNamed tested
  let yes := if negated then isNot else is
  let no := if negated then is else isNot
  let widen (types : TypeSet) (info : VarInfo) : VarInfo :=
    { info with types := info.types.union types }
  if inLogic && guard.walk.scope.hasImplicit name then
    { guard with
      walk := guard.walk.mapScope (·.update name (widen yes))
      otherwise := guard.otherwise.mapScope (·.update name (widen no)) }
  else
    { guard with
      walk := guard.walk.mapScope (·.narrow name yes)
      otherwise := guard.otherwise.mapScope (·.narrow name no) }

/-- Narrows the subject of an `instanceof` test, if it is a variable and the class is known. -/
def narrowTo (guard : Guard) (naming : Naming) (subject : Expr) (ref : ClassRef)
    (negated inLogic : Bool) : Guard :=
  match subject.variableName?, ref.name? naming with
  | some name, some tested => guard.narrow name tested negated inLogic
  | _, _ => guard

end Guard

/-- The two outcomes of a condition, and the walk in the block that holds it. -/
structure Split where
  walk : Walk
  yes : Block
  no : Block
  markers : List String
deriving Inhabited

namespace Guard

/--
Ends a condition that stands in `block`. A variable first assigned in the condition is defined
whatever the outcome, so the block and the false outcome get it too.
-/
def split (guard : Guard) (block : Block) : Split :=
  let yes := guard.walk.block
  let fresh := yes.scope.entries.filter fun (name, info) =>
    !(info.implicit || guard.markers.contains name || block.scope.mayHave name)
  let define (scope : Scope) : Scope :=
    fresh.foldl (fun scope (name, info) => scope.add name info.types true) scope
  { walk := { guard.walk with block := block.mapScope define }
    yes
    no := guard.otherwise.mapScope define
    markers := guard.markers }

end Guard

namespace Walk

/-- Retracts the markers that no assignment replaced. -/
def dropMarkers (markers : List String) (walk : Walk) : Walk :=
  markers.foldl (fun walk name =>
    match walk.scope.get? name with
    | none => walk
    | some info =>
      let kept := info.types.filter fun value => !value.isNamed (issetMarker name)
      walk.mapScope fun scope =>
        if kept.isEmpty then scope.erase name else scope.put name { info with types := kept })
    walk

end Walk

end PhpAudit
