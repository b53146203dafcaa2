/-
This file defines the syntax tree that every pass of the analyzer walks. Names are kept as written
in the source; variables keep their `$`. Statements and expressions carry their byte range.
-/

import PhpAudit.Syntax.Operator
import PhpAudit.Syntax.Span

namespace PhpAudit

/-- Who may see a class member. -/
inductive Visibility where
  | everyone
  | family
  | owner
deriving DecidableEq, Inhabited, Repr

inductive ClassKind where
  | ordinary
  | interface
  | trait
  | enum
deriving DecidableEq, Inhabited, Repr

/-- Which of the three name tables an import extends. -/
inductive ImportKind where
  | classLike
  | function
  | constant
deriving DecidableEq, Inhabited, Repr

/-- One item of a `use` statement; `name` is spelled in full, without a leading `\`. -/
structure Import where
  kind : ImportKind
  name : String
  rename : Option String
deriving DecidableEq, Inhabited, Repr

/-- A variable that a closure takes from the scope around it. -/
structure Capture where
  name : String
  byRef : Bool
  span : Span
deriving DecidableEq, Inhabited, Repr

mutual

/-- An expression and its range. -/
structure Expr where
  kind : ExprKind
  span : Span

inductive ExprKind where
  | var (name : String)
  /-- `$$x` and `${...}`, with the variables read to build the name -/
  | dynamicVar (reads : List String)
  | integer
  | float
  /-- A string literal; its value may be unknown -/
  | string (value : Option String)
  /-- A string with interpolated variables -/
  | interpolated (reads : List String)
  | boolean (value : Bool)
  | null
  /-- `__LINE__`, `__CLASS__`, ... -/
  | magic (name : String)
  | paren (inner : Expr)
  | array (items : List Item)
  /-- `list(...)` as an assignment target -/
  | list (items : List Item)
  /-- `base[index]`, or `base[]` -/
  | element (base : Expr) (index : Option Expr)
  | assign (target value : Expr) (op : AssignOp) (byRef : Bool)
  | binary (op : BinaryOp) (left right : Expr)
  | unary (op : UnaryOp) (operand : Expr)
  | instanceOf (subject : Expr) (ref : ClassRef)
  /-- `test ? yes : no`, or `test ?: no` -/
  | ternary (test : Expr) (yes : Option Expr) (no : Expr)
  /-- A call of a function by its name -/
  | call (name : String) (args : List Arg)
  /-- A call of the value of an expression -/
  | callValue (callee : Expr) (args : List Arg)
  | methodCall (object : Expr) (method : Option String) (args : List Arg) (nullsafe : Bool)
  | staticCall (ref : ClassRef) (method : Option String) (args : List Arg)
  | property (object : Expr) (name : Option String) (nullsafe : Bool)
  /-- `Class::$name`; the name keeps its `$` -/
  | staticProperty (ref : ClassRef) (name : Option String)
  | classConstant (ref : ClassRef) (name : String)
  | constant (name : String)
  | new (ref : ClassRef) (args : List Arg)
  | isset (values : List Expr)
  | isEmpty (value : Expr)
  /-- `exit` or `die`, with the variables read by its argument -/
  | exit (die : Bool) (reads : List String)
  | includeFile (path : Expr)
  | print (reads : List String)
  | closure (params : List Param) (captures : List Capture) (hint : Option String)
      (isStatic : Bool) (body : List Stmt)
  | arrow (params : List Param) (hint : Option String) (isStatic : Bool) (body : Expr)
  | matchOn (subject : Expr) (arms : List MatchArm)
  | throw (exception : Expr)
  | clone (object : Expr)
  | yield (key value : Option Expr)
  | yieldFrom (source : Expr)
  /-- Anything the analyzer does not model, with the variables it reads -/
  | unmodeled (reads : List String)

/-- A slot of an array literal or of a destructuring pattern. -/
inductive Item where
  | skip
  | entry (key : Option Expr) (value : Expr) (byRef unpack : Bool)

structure Arg where
  value : Expr
  unpack : Bool
  label : Option String

/-- How a class is referred to in an expression. -/
inductive ClassRef where
  | named (name : String)
  | self
  | static
  | parent
  | dynamic (value : Expr)

/-- An arm of `match`; without conditions it is the default arm. -/
structure MatchArm where
  conditions : List Expr
  body : Expr

structure Param where
  name : String
  span : Span
  hint : Option String
  default : Option Expr
  byRef : Bool
  variadic : Bool
  /-- Set for a constructor parameter that also declares a property -/
  promoted : Option Visibility

/-- A statement and its range. -/
structure Stmt where
  kind : StmtKind
  span : Span

inductive StmtKind where
  | expr (value : Expr)
  | echo (values : List Expr)
  | returns (value : Option Expr)
  | breaks
  | continues
  | block (body : List Stmt)
  | branch (test : Expr) (body : List Stmt) (bodySpan : Span) (otherwise : Otherwise)
  | whileLoop (test : Expr) (body : List Stmt)
  | doWhile (body : List Stmt) (test : Expr)
  | forLoop (init test step : List Expr) (body : List Stmt)
  | foreach (subject : Expr) (key : Option Expr) (value : Expr) (byRef : Bool) (body : List Stmt)
  | switch (subject : Expr) (cases : List Case)
  /-- The range of the last clause is meaningful only if the clause exists -/
  | tryCatch (body : List Stmt) (catches : List Catch) (final : Option (List Stmt)) (finalSpan : Span)
  | global (names : List String)
  | static (bindings : List Binding)
  /-- The plain variables among the operands -/
  | unset (names : List String)
  | namespaced (name : Option String) (body : List Stmt)
  | imports (items : List Import)
  | function (decl : FunctionDecl)
  | classLike (decl : ClassDecl)
  | constants (items : List ConstItem)
  | nop

/-- What follows the first branch of an `if`. -/
inductive Otherwise where
  | nothing
  | orElse (body : List Stmt)
  | orIf (test : Expr) (body : List Stmt) (span : Span) (rest : Otherwise)

/-- A case of a `switch`; the default case has no test. -/
structure Case where
  test : Option Expr
  body : List Stmt
  span : Span
  /-- A comment between the previous case and this one announces the fall-through -/
  announced : Bool

structure Catch where
  types : List String
  name : Option String
  body : List Stmt
  span : Span

/-- A variable or property with an optional initial value. -/
structure Binding where
  name : String
  value : Option Expr
  span : Span

structure ConstItem where
  name : String
  value : Expr
  span : Span

structure FunctionDecl where
  name : String
  nameSpan : Span
  span : Span
  params : List Param
  hint : Option String
  byRef : Bool
  body : List Stmt

structure ClassDecl where
  kind : ClassKind
  name : String
  nameSpan : Span
  span : Span
  parents : List String
  interfaces : List String
  isAbstract : Bool
  isFinal : Bool
  /-- The type of the values of a backed enum -/
  backing : Option String
  members : List Member

inductive Member where
  | method (decl : MethodDecl)
  | property (items : List Binding) (hint : Option String) (isStatic : Bool) (visibility : Visibility)
  | constants (items : List ConstItem) (visibility : Visibility)
  | enumCase (name : String) (value : Option Expr) (span : Span)
  | traitUse (names : List String)

structure MethodDecl where
  name : String
  nameSpan : Span
  span : Span
  params : List Param
  hint : Option String
  /-- Missing for abstract and interface methods -/
  body : Option (List Stmt)
  isStatic : Bool
  isAbstract : Bool
  isFinal : Bool
  visibility : Visibility

end

namespace Expr

/-- The expression inside any number of parentheses. -/
def unparen : Expr → Expr
  | ⟨.paren inner, _⟩ => inner.unparen
  | expr => expr

/-- The name of a plain variable, possibly in parentheses. -/
def variableName? (expr : Expr) : Option String :=
  match expr.unparen.kind with
  | .var name => some name
  | _ => none

end Expr

instance : Inhabited Expr := ⟨⟨.null, default⟩⟩
instance : Inhabited Stmt := ⟨⟨.nop, default⟩⟩
instance : Inhabited ClassRef := ⟨.self⟩
instance : Inhabited Param := ⟨⟨"", default, none, none, false, false, none⟩⟩
instance : Inhabited Member := ⟨.traitUse []⟩

namespace Stmt

/-- Declarations take effect before the code runs, so they are never unreachable. -/
def isDeclaration (stmt : Stmt) : Bool :=
  match stmt.kind with
  | .function .. | .classLike .. | .namespaced .. => true
  | _ => false

end Stmt

end PhpAudit
