/-
This file describes the declarations that the index records: functions and methods, properties,
constants and class-like types.
-/

import Std.Data.TreeMap
import Std.Data.TreeSet
import PhpAudit.Flow.Exit
import PhpAudit.Syntax.Tree
import PhpAudit.Types.Set

namespace PhpAudit

/-- Where a symbol is declared: file, line and byte range. -/
structure Position where
  file : String
  line : Nat
  start : Nat
  stop : Nat
deriving DecidableEq, Inhabited, Repr

namespace Position

/-- The size of a declaration; of two declarations of one symbol the larger counts. -/
def length (position : Position) : Nat :=
  position.stop - position.start

end Position

structure ParamInfo where
  name : String
  types : TypeSet
  byRef : Bool := false
  variadic : Bool := false
deriving DecidableEq, Inhabited

/-- A function, with its qualified name, or a method, with its bare name. -/
structure FunctionInfo where
  name : String
  position : Position
  params : List ParamInfo := []
  /-- The number of arguments that must be passed -/
  required : Nat := 0
  /-- The type of the result -/
  types : TypeSet := .empty
  visibility : Visibility := .everyone
  isStatic : Bool := false
  isAbstract : Bool := false
  isFinal : Bool := false
  isPure : Bool := false
  /-- How every path through the body ends; empty if some path returns -/
  exits : Exits := .none
deriving Inhabited

namespace FunctionInfo

/-- A call never returns to its caller. -/
def neverReturns (info : FunctionInfo) : Bool :=
  !info.exits.isEmpty

end FunctionInfo

structure PropertyInfo where
  position : Position
  types : TypeSet
  visibility : Visibility := .everyone
deriving Inhabited

/-- The value of a constant as far as it is known from its declaration. -/
inductive ConstValue where
  | integer (value : Int64)
  | float (value : Float)
  | string (value : String)
  | boolean (value : Bool)
deriving Inhabited

structure ConstInfo where
  position : Position
  types : TypeSet
  visibility : Visibility := .everyone
  value : Option ConstValue := none
deriving Inhabited

/-- A class, interface, trait or enum. -/
structure ClassInfo where
  /-- The fully qualified name as declared -/
  name : String
  position : Position
  kind : ClassKind := .ordinary
  isAbstract : Bool := false
  isFinal : Bool := false
  /-- A synthetic class that describes an array by its keys -/
  isShape : Bool := false
  parent : Option String := none
  /-- The interfaces that an interface extends -/
  parentInterfaces : List String := []
  traits : Std.TreeSet String := {}
  /-- The interfaces that the class itself implements -/
  interfaces : Std.TreeSet String := {}
  mixins : List String := []
  /-- Methods by folded name -/
  methods : Std.TreeMap String FunctionInfo := {}
  /-- Properties by bare name, static ones by name with `$` -/
  properties : Std.TreeMap String PropertyInfo := {}
  constants : Std.TreeMap String ConstInfo := {}
deriving Inhabited

namespace ClassInfo

def method? (info : ClassInfo) (name : String) : Option FunctionInfo :=
  info.methods[Text.lower name]?

def addMethod (info : ClassInfo) (method : FunctionInfo) : ClassInfo :=
  { info with methods := info.methods.insert (Text.lower method.name) method }

def property? (info : ClassInfo) (name : String) : Option PropertyInfo :=
  info.properties[name]?

def constant? (info : ClassInfo) (name : String) : Option ConstInfo :=
  info.constants[name]?

end ClassInfo

end PhpAudit
