/-
This file classifies the names of concrete types. Class names are fully qualified and start with
`\`; the name of an array type ends in `[]`.
-/

import PhpAudit.Text.Basic

namespace PhpAudit.TypeName

/-- The type of an array literal without elements. -/
def emptyArray : String := "empty_array"

/-- The type of a variable whose use was reported as undefined. -/
def undefined : String := "undefined"

/-- The marker for the class that a static call binds to. -/
def lateStatic : String := "static"

/-- Names with a builtin meaning; they never name a class. -/
def trivial : List String :=
  ["bool", "callable", "float", "int", "mixed", "object", "resource", "string", "void",
    "iterable", "never", "null", "true", "false"]

def isTrivial (name : String) : Bool :=
  trivial.contains name

/-- The name of a synthetic class that describes an array by its keys. -/
def isShape (name : String) : Bool :=
  Text.startsWith name "\\shape$"

def isClosure (name : String) : Bool :=
  Text.startsWith name "\\Closure"

def isArray (name : String) : Bool :=
  Text.endsWith name "[]"

/-- A qualified name of a class proper: no shape, array or closure. -/
def isClass (name : String) : Bool :=
  Text.startsWith name "\\" && !isShape name && !isArray name && !isClosure name

/-- The name of the arrays with elements of type `name`. -/
def arrayOf (name : String) : String :=
  name ++ "[]"

/-- The name of the elements of an array type; other names are their own. -/
def element (name : String) : String :=
  (Text.beforeEnd? name "[]").getD name

end PhpAudit.TypeName
