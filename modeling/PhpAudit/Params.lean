/-
This file types the parameters of functions, methods and closures.
-/

import PhpAudit.Typing
import PhpAudit.Types.Hint

namespace PhpAudit

/-- The method whose declarations in interfaces supply omitted parameter types. -/
structure BaseMethod where
  owner : String
  name : String
deriving DecidableEq, Inhabited, Repr

namespace Param

/--
The types of a parameter: its hint, else the type of its default value, else what the interfaces of
the class declare. A variadic parameter is an array of these.
-/
def types (naming : Naming) (base : Option BaseMethod) (position : Nat) (param : Param) :
    TypeSet :=
  let hinted := (param.hint.map (Hint.read naming)).getD .empty
  let given :=
    if hinted.isEmpty then
      (param.default.map (Typing.localType .empty naming)).getD hinted
    else
      hinted
  let declared :=
    if given.isEmpty then
      (base.map fun base => TypeSet.singleton (.baseParam position base.owner base.name)).getD given
    else
      given
  if param.variadic then declared.inArray else declared

/-- The typed parameters of a function, method or closure. -/
def describe (naming : Naming) (base : Option BaseMethod) (params : List Param) : List ParamInfo :=
  params.zipIdx.map fun (param, position) =>
    { name := param.name
      types := param.types naming base position
      byRef := param.byRef
      variadic := param.variadic }

/-- The number of parameters before the first that may be omitted. -/
def required (params : List Param) : Nat :=
  (params.takeWhile fun param => param.default.isNone && !param.variadic).length

end Param

namespace Scope

/-- Defines every parameter. -/
def bind (scope : Scope) (params : List ParamInfo) : Scope :=
  params.foldl (fun scope param => scope.add param.name param.types true) scope

end Scope

end PhpAudit
