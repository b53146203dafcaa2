/-
This file gives types to expressions. The local type uses only the scope and the naming context, and
defers everything that is declared elsewhere; a complete index then resolves what was deferred.
-/

import PhpAudit.Resolution
import PhpAudit.Scope

namespace PhpAudit

namespace ClassRef

/-- The fully qualified name of the class referred to, if it is known. -/
def name? (naming : Naming) (ref : ClassRef) : Option String :=
  let nonEmpty (name : String) := if name.isEmpty then none else some name
  match ref with
  | .named name => nonEmpty (naming.className name)
  | .self | .static => nonEmpty naming.owner
  | .parent => nonEmpty naming.parent
  | .dynamic _ => none

end ClassRef

namespace Typing

/-- Arithmetic on two integers gives an integer, any other arithmetic a float. -/
def arithmetic (left right : TypeSet) : TypeSet :=
  if left.isJust "int" && right.isJust "int" then .named "int" else .named "float"

/-- A sign keeps an integer and makes anything else a float. -/
def signed (operand : TypeSet) : TypeSet :=
  if operand.isJust "int" then operand else .named "float"

/-- The type that a cast gives. -/
def cast : String → TypeSet
  | "array" => .named "mixed[]"
  | "object" => .named "\\stdClass"
  | target => .named target

/-- A literal kind that gives its name to the array that holds only such literals. -/
inductive ElementKind where
  | string
  | integer
  | float
  | other
deriving DecidableEq

def elementKind (item : Item) : ElementKind :=
  match item with
  | .entry _ value _ unpack =>
    if unpack then
      .other
    else
      match value.kind with
      | .string _ | .interpolated _ => .string
      | .integer => .integer
      | .float => .float
      | _ => .other
  | .skip => .other

/-- The slots of an array literal that hold a value. -/
def filled (items : List Item) : List Item :=
  items.filter fun item => match item with
    | .skip => false
    | .entry .. => true

/-- The type of an array literal: its literals name it only if they are all of one kind. -/
def arrayLiteral (items : List Item) : TypeSet :=
  match (filled items).map elementKind with
  | [] => .named TypeName.emptyArray
  | kinds =>
    if kinds.all (· == .string) then .named "string[]"
    else if kinds.all (· == .integer) then .named "int[]"
    else if kinds.all (· == .float) then .named "float[]"
    else .named "mixed[]"

/-- The key of an element, if it is a string literal. -/
def literalKey? (index : Option Expr) : Option String :=
  match index with
  | some ⟨.string (some key), _⟩ => some key
  | _ => none

/-- The elements of a set, under a key if it is known. -/
def elements (types : TypeSet) : Option String → TypeSet
  | some key => types.map (TypeValue.elementUnder key)
  | none => types.element

/-- A deferred value about a class, or nothing if the class is not known. -/
def ofRef (naming : Naming) (ref : ClassRef) (value : String → TypeValue) : TypeSet :=
  match ref.name? naming with
  | some name => .singleton (value name)
  | none => .empty

section

variable (scope : Scope) (naming : Naming)

mutual

/-- The type of an expression, without the index. -/
def localType : Expr → TypeSet
  | ⟨kind, _⟩ => localKind kind

def localKind : ExprKind → TypeSet
  | .var name => (scope.types? name).getD .empty
  | .paren inner | .clone inner => localType inner
  | .integer => .named "int"
  | .float => .named "float"
  | .string _ | .interpolated _ => .named "string"
  | .boolean _ => .named "bool"
  | .null => .named "null"
  | .magic name => if Text.sameFolded name "__LINE__" then .named "int" else .named "string"
  | .array items => arrayLiteral items
  | .element base index => elements (localType base) (literalKey? index)
  | .assign target value op _ =>
    match op with
    | .assign => localType value
    | .concat => .named "string"
    | .bitwise => .named "int"
    | .arithmetic => arithmetic (localType target) (localType value)
    | .coalesce => (localType target).union (localType value)
  | .binary op left right =>
    if op.isArithmetic then arithmetic (localType left) (localType right)
    else if op == .concat then .named "string"
    else if op.isInteger then .named "int"
    else if op.isLogical || op.isComparison then .named "bool"
    else if op == .coalesce then (localType left).union (localType right)
    else .empty
  | .unary op operand =>
    match op with
    | .not => .named "bool"
    | .bitNot => .named "int"
    | .cast target => cast target
    | .negate | .plus => signed (localType operand)
    | .other => .empty
    | _ => localType operand
  | .instanceOf _ _ | .isset _ | .isEmpty _ => .named "bool"
  | .ternary test yes no => (orElseLocal yes (localType test)).union (localType no)
  | .call name _ => .singleton (.functionCall (naming.functionName name).name)
  | .methodCall object (some method) _ _ =>
    (localType object).map fun value => .methodCall value method
  | .property object (some name) _ => (localType object).map fun value => .property value name
  | .staticCall ref (some method) _ => ofRef naming ref fun owner => .staticCall owner method
  | .staticProperty ref (some name) => ofRef naming ref fun owner => .staticProperty owner name
  | .classConstant ref name =>
    if Text.sameFolded name "class" then .named "string"
    else ofRef naming ref fun owner => .classConstant owner name
  | .constant name => .singleton (.constant (naming.constantName name).name)
  | .new ref _ => ofRef naming ref .concrete
  | .closure .. | .arrow .. => .named "\\Closure"
  | .matchOn _ arms => localArms arms .empty
  | .print _ => .named "int"
  | .yield _ _ | .yieldFrom _ | .includeFile _ => .named "mixed"
  | .methodCall _ none _ _ | .property _ none _ | .staticCall _ none _ | .staticProperty _ none
  | .callValue _ _ | .dynamicVar _ | .list _ | .exit _ _ | .throw _ | .unmodeled _ => .empty

/-- The type of an optional expression, and `fallback` in its absence. -/
def orElseLocal : Option Expr → TypeSet → TypeSet
  | some value, _ => localType value
  | none, fallback => fallback

/-- The types of the bodies of some arms, joined to `types`. -/
def localArms : List MatchArm → TypeSet → TypeSet
  | [], types => types
  | ⟨_, body⟩ :: rest, types => localArms rest (types.append (localType body))

end

end

/--
The type of an expression. While the index is being filled this is the local type; afterwards it is
resolved for the class around the code, and anything if that leaves nothing.
-/
def typeOf (index : Index) (scope : Scope) (naming : Naming) (expr : Expr) : TypeSet :=
  let types := localType scope naming expr
  if index.complete then
    let resolved := Resolution.resolve index naming.owner types
    if resolved.isEmpty then .mixed else resolved
  else
    types

end Typing

end PhpAudit
