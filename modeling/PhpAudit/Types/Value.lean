/-
This file defines type values: a concrete type name, or a deferred description such as "what this
function returns" that only the symbol index can settle.
-/

import PhpAudit.Types.Name

namespace PhpAudit

/--
One description of the type of an expression. Class names are fully qualified. The order of the
constructors and their fields is the order in which the members of a type set are listed.
-/
inductive TypeValue where
  /-- A type name: `int`, `mixed`, `\A\B`, `int[]` -/
  | concrete (name : String)
  /-- What a function returns -/
  | functionCall (name : String)
  | staticCall (owner method : String)
  | methodCall (object : TypeValue) (method : String)
  /-- The name of a static property keeps its `$` -/
  | staticProperty (owner name : String)
  | property (object : TypeValue) (name : String)
  | classConstant (owner name : String)
  | arrayOf (element : TypeValue)
  | elementOf (array : TypeValue)
  /-- The element under a key that is known -/
  | elementAt (array : TypeValue) (key : String)
  /-- A variable of the code outside functions, without its `$` -/
  | global (name : String)
  | constant (name : String)
  /-- A parameter as declared by the interfaces of a class -/
  | baseParam (position : Nat) (owner method : String)
deriving DecidableEq, Inhabited, Repr

namespace TypeValue

/-! ### The order of values -/

/-- The place of the kind of a value among the kinds. -/
def rank : TypeValue → Nat
  | concrete .. => 0
  | functionCall .. => 1
  | staticCall .. => 2
  | methodCall .. => 3
  | staticProperty .. => 4
  | property .. => 5
  | classConstant .. => 6
  | arrayOf .. => 7
  | elementOf .. => 8
  | elementAt .. => 9
  | global .. => 10
  | constant .. => 11
  | baseParam .. => 12

/-- Values are ordered by their kinds; those of one kind by their fields, the first that differs. -/
def order : TypeValue → TypeValue → Ordering
  | concrete first, concrete second | functionCall first, functionCall second
  | global first, global second | constant first, constant second => compare first second
  | staticCall owner name, staticCall other name'
  | staticProperty owner name, staticProperty other name'
  | classConstant owner name, classConstant other name' =>
    (compare owner other).then (compare name name')
  | methodCall first name, methodCall second name' | property first name, property second name'
  | elementAt first name, elementAt second name' => (order first second).then (compare name name')
  | arrayOf first, arrayOf second | elementOf first, elementOf second => order first second
  | baseParam position owner method, baseParam position' other method' =>
    (compare position position').then ((compare owner other).then (compare method method'))
  | first, second => compare first.rank second.rank

instance : Ord TypeValue := ⟨order⟩

/-! ### Arrays and names -/

/-- Arrays of `value`: arrays of the elements of an array are that array. -/
def inArray : TypeValue → TypeValue
  | elementOf array => array
  | concrete name => concrete (TypeName.arrayOf name)
  | value => arrayOf value

/-- Elements of `value`: the elements of arrays of a type are of that type. -/
def element : TypeValue → TypeValue
  | arrayOf value => value
  | concrete name =>
    match Text.beforeEnd? name "[]" with
    | some inner => concrete inner
    | none => elementOf (concrete name)
  | value => elementOf value

/-- The element of `value` under `key`; plain arrays ignore the key. -/
def elementUnder (key : String) : TypeValue → TypeValue
  | arrayOf value => value
  | concrete name =>
    match Text.beforeEnd? name "[]" with
    | some inner => concrete inner
    | none => elementAt (concrete name) key
  | value => elementAt value key

/-- The name of a concrete type. -/
def name? : TypeValue → Option String
  | concrete name => some name
  | _ => none

/-- Whether the index is needed to tell the type. -/
def isDeferred (value : TypeValue) : Bool :=
  value.name?.isNone

/-- Whether the value is the concrete type `name`. -/
def isNamed (name : String) (value : TypeValue) : Bool :=
  value.name? == some name

/-- The text of a type value in messages. -/
def render : TypeValue → String
  | concrete name => name
  | functionCall name => name ++ "()"
  | staticCall owner method => owner ++ "::" ++ method ++ "()"
  | methodCall object method => "(" ++ render object ++ ")->" ++ method ++ "()"
  | staticProperty owner name => owner ++ "::" ++ name
  | property object name => "(" ++ render object ++ ")->" ++ name
  | classConstant owner name => owner ++ "::" ++ name
  | arrayOf element => render element ++ "[]"
  | elementOf array => "elem(" ++ render array ++ ")"
  | elementAt array key => "elem(" ++ render array ++ ")[" ++ key ++ "]"
  | global name => "global_$" ++ name
  | constant name => "constant(" ++ name ++ ")"
  | baseParam position owner method =>
    "param(" ++ owner ++ ")::" ++ method ++ "[" ++ toString position ++ "]"

end TypeValue

end PhpAudit
