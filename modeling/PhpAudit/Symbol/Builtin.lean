/-
This file declares the builtin symbols that resolution leans on: the interfaces of iteration and
array access, the throwable hierarchy, the enum interfaces, and common functions with known results.
-/

import PhpAudit.Symbol.Index

namespace PhpAudit.Builtin

/-! ### Tables -/

/-- A builtin class-like: name, kind, parent, and the interfaces it implements or extends. -/
structure ClassRow where
  name : String
  kind : ClassKind
  parent : Option String
  interfaces : List String

/-- A builtin method: its class, name, result, parameters, and whether it is static. -/
structure MethodRow where
  owner : String
  name : String
  result : String
  params : List String
  isStatic : Bool

/-- A builtin function: name, result and number of required parameters. -/
structure FunctionRow where
  name : String
  result : String
  required : Nat

def classRows : List ClassRow :=
  [⟨"\\Traversable", .interface, none, []⟩,
    ⟨"\\Iterator", .interface, none, ["\\Traversable"]⟩,
    ⟨"\\IteratorAggregate", .interface, none, ["\\Traversable"]⟩,
    ⟨"\\ArrayAccess", .interface, none, []⟩,
    ⟨"\\Countable", .interface, none, []⟩,
    ⟨"\\Stringable", .interface, none, []⟩,
    ⟨"\\JsonSerializable", .interface, none, []⟩,
    ⟨"\\Throwable", .interface, none, ["\\Stringable"]⟩,
    ⟨"\\UnitEnum", .interface, none, []⟩,
    ⟨"\\BackedEnum", .interface, none, ["\\UnitEnum"]⟩,
    ⟨"\\stdClass", .ordinary, none, []⟩,
    ⟨"\\Closure", .ordinary, none, []⟩,
    ⟨"\\Generator", .ordinary, none, ["\\Iterator"]⟩,
    ⟨"\\ArrayIterator", .ordinary, none, ["\\Iterator", "\\ArrayAccess", "\\Countable"]⟩,
    ⟨"\\ArrayObject", .ordinary, none, ["\\IteratorAggregate", "\\ArrayAccess", "\\Countable"]⟩,
    ⟨"\\Exception", .ordinary, none, ["\\Throwable"]⟩,
    ⟨"\\Error", .ordinary, none, ["\\Throwable"]⟩,
    ⟨"\\ErrorException", .ordinary, some "\\Exception", []⟩,
    ⟨"\\TypeError", .ordinary, some "\\Error", []⟩,
    ⟨"\\ValueError", .ordinary, some "\\Error", []⟩,
    ⟨"\\ArithmeticError", .ordinary, some "\\Error", []⟩,
    ⟨"\\DivisionByZeroError", .ordinary, some "\\ArithmeticError", []⟩,
    ⟨"\\ArgumentCountError", .ordinary, some "\\TypeError", []⟩,
    ⟨"\\LogicException", .ordinary, some "\\Exception", []⟩,
    ⟨"\\BadFunctionCallException", .ordinary, some "\\LogicException", []⟩,
    ⟨"\\BadMethodCallException", .ordinary, some "\\BadFunctionCallException", []⟩,
    ⟨"\\DomainException", .ordinary, some "\\LogicException", []⟩,
    ⟨"\\InvalidArgumentException", .ordinary, some "\\LogicException", []⟩,
    ⟨"\\LengthException", .ordinary, some "\\LogicException", []⟩,
    ⟨"\\OutOfRangeException", .ordinary, some "\\LogicException", []⟩,
    ⟨"\\RuntimeException", .ordinary, some "\\Exception", []⟩,
    ⟨"\\OutOfBoundsException", .ordinary, some "\\RuntimeException", []⟩,
    ⟨"\\OverflowException", .ordinary, some "\\RuntimeException", []⟩,
    ⟨"\\RangeException", .ordinary, some "\\RuntimeException", []⟩,
    ⟨"\\UnderflowException", .ordinary, some "\\RuntimeException", []⟩,
    ⟨"\\UnexpectedValueException", .ordinary, some "\\RuntimeException", []⟩]

def methodRows : List MethodRow :=
  [⟨"\\Iterator", "current", "mixed", [], false⟩,
    ⟨"\\Iterator", "key", "mixed", [], false⟩,
    ⟨"\\Iterator", "next", "void", [], false⟩,
    ⟨"\\Iterator", "rewind", "void", [], false⟩,
    ⟨"\\Iterator", "valid", "bool", [], false⟩,
    ⟨"\\IteratorAggregate", "getIterator", "\\Traversable", [], false⟩,
    ⟨"\\ArrayAccess", "offsetExists", "bool", ["$offset"], false⟩,
    ⟨"\\ArrayAccess", "offsetGet", "mixed", ["$offset"], false⟩,
    ⟨"\\ArrayAccess", "offsetSet", "void", ["$offset", "$value"], false⟩,
    ⟨"\\ArrayAccess", "offsetUnset", "void", ["$offset"], false⟩,
    ⟨"\\Countable", "count", "int", [], false⟩,
    ⟨"\\Stringable", "__toString", "string", [], false⟩,
    ⟨"\\JsonSerializable", "jsonSerialize", "mixed", [], false⟩,
    ⟨"\\Throwable", "getMessage", "string", [], false⟩,
    ⟨"\\Throwable", "getCode", "int", [], false⟩,
    ⟨"\\Throwable", "getFile", "string", [], false⟩,
    ⟨"\\Throwable", "getLine", "int", [], false⟩,
    ⟨"\\Throwable", "getTrace", "mixed[]", [], false⟩,
    ⟨"\\Throwable", "getTraceAsString", "string", [], false⟩,
    ⟨"\\Throwable", "getPrevious", "\\Throwable|null", [], false⟩,
    ⟨"\\UnitEnum", "cases", "static[]", [], true⟩,
    ⟨"\\BackedEnum", "from", "static", ["$value"], true⟩,
    ⟨"\\BackedEnum", "tryFrom", "static|null", ["$value"], true⟩,
    ⟨"\\Closure", "bind", "\\Closure|null", ["$closure", "$newThis"], true⟩,
    ⟨"\\Closure", "fromCallable", "\\Closure", ["$callback"], true⟩,
    ⟨"\\Closure", "call", "mixed", ["$newThis"], false⟩,
    ⟨"\\Generator", "current", "mixed", [], false⟩,
    ⟨"\\Generator", "send", "mixed", ["$value"], false⟩,
    ⟨"\\Generator", "getReturn", "mixed", [], false⟩,
    ⟨"\\ArrayIterator", "current", "mixed", [], false⟩,
    ⟨"\\ArrayIterator", "offsetGet", "mixed", ["$key"], false⟩,
    ⟨"\\ArrayIterator", "count", "int", [], false⟩,
    ⟨"\\ArrayObject", "getIterator", "\\ArrayIterator", [], false⟩,
    ⟨"\\ArrayObject", "offsetGet", "mixed", ["$key"], false⟩,
    ⟨"\\ArrayObject", "count", "int", [], false⟩,
    ⟨"\\ArrayObject", "getArrayCopy", "mixed[]", [], false⟩]

def functionRows : List FunctionRow :=
  [⟨"\\strlen", "int", 1⟩,
    ⟨"\\count", "int", 1⟩,
    ⟨"\\intval", "int", 1⟩,
    ⟨"\\floatval", "float", 1⟩,
    ⟨"\\strval", "string", 1⟩,
    ⟨"\\boolval", "bool", 1⟩,
    ⟨"\\time", "int", 0⟩,
    ⟨"\\trim", "string", 1⟩,
    ⟨"\\strtolower", "string", 1⟩,
    ⟨"\\strtoupper", "string", 1⟩,
    ⟨"\\sprintf", "string", 1⟩,
    ⟨"\\implode", "string", 1⟩,
    ⟨"\\explode", "string[]", 2⟩,
    ⟨"\\str_repeat", "string", 2⟩,
    ⟨"\\substr", "string", 2⟩,
    ⟨"\\strpos", "int|false", 2⟩,
    ⟨"\\in_array", "bool", 2⟩,
    ⟨"\\array_keys", "mixed[]", 1⟩,
    ⟨"\\array_values", "mixed[]", 1⟩,
    ⟨"\\array_merge", "mixed[]", 0⟩,
    ⟨"\\is_array", "bool", 1⟩,
    ⟨"\\is_string", "bool", 1⟩,
    ⟨"\\is_int", "bool", 1⟩,
    ⟨"\\is_null", "bool", 1⟩,
    ⟨"\\json_encode", "string|false", 1⟩,
    ⟨"\\func_get_args", "mixed[]", 0⟩,
    ⟨"\\compact", "mixed[]", 0⟩,
    ⟨"\\extract", "int", 1⟩,
    ⟨"\\define", "bool", 2⟩,
    ⟨"\\defined", "bool", 1⟩,
    ⟨"\\trigger_error", "bool", 1⟩,
    ⟨"\\microtime", "string|float", 0⟩]

/-- Builtin functions that change more than their result. -/
def impure : List String :=
  ["\\define", "\\extract", "\\trigger_error"]

/-- Builtin classes that cannot be extended. -/
def final : List String :=
  ["\\Closure", "\\Generator"]

/-! ### Declarations -/

def position : Position := ⟨builtinFile, 0, 0, 0⟩

/-- The precise type set written as `text`. -/
def typesOf (text : String) : TypeSet :=
  (TypeSet.ofList ((Text.splitBy (· == '|') text).map TypeValue.concrete)).precise.sealed

private def methodInfo (kind : ClassKind) (row : MethodRow) : FunctionInfo where
  name := row.name
  position := position
  params := row.params.map fun name => { name, types := .empty }
  required := row.params.length
  types := typesOf row.result
  isStatic := row.isStatic
  isAbstract := kind == .interface

private def classInfo (row : ClassRow) : ClassInfo :=
  let isInterface := row.kind == .interface
  let info : ClassInfo :=
    { name := row.name
      position := position
      kind := row.kind
      isFinal := final.contains row.name
      parent := row.parent
      parentInterfaces := if isInterface then row.interfaces else []
      interfaces := if isInterface then {} else Std.TreeSet.ofList row.interfaces }
  (methodRows.filter (·.owner == row.name)).foldl
    (fun info method => info.addMethod (methodInfo row.kind method)) info

private def functionInfo (row : FunctionRow) : FunctionInfo where
  name := row.name
  position := position
  required := row.required
  types := typesOf row.result
  isPure := !impure.contains row.name

/-- The symbols of the builtin file. -/
def symbols : FileSymbols :=
  let withClasses := classRows.foldl (fun symbols row => symbols.addClass (classInfo row)) {}
  functionRows.foldl (fun symbols row => symbols.addFunction (functionInfo row)) withClasses

/-- The index that holds the builtin symbols and nothing else. -/
def index : Index :=
  Index.empty.insertFile builtinFile symbols

end PhpAudit.Builtin
