/-
This file analyzes one parsed file: it declares the functions, classes and constants of the file and
walks the code outside them as one block, whose variables are the globals of the file.
-/

import PhpAudit.Declaration

namespace PhpAudit

/-- What went wrong while a file was parsed. -/
inductive ParseError where
  | syntaxError (offset : Nat) (message : String)
  | panicked
deriving DecidableEq, Inhabited, Repr

namespace ParseError

/-- The place of the problem, if the parser told one. -/
def offset : ParseError → Nat
  | syntaxError offset _ => offset
  | panicked => 0

/-- The message of the issue that the problem is reported as. -/
def message : ParseError → String
  | syntaxError _ message => message
  | panicked => "parser panicked while reading the file"

end ParseError

/-- A file that was parsed, with the problems met on the way. -/
structure ParsedFile where
  statements : List Stmt
  errors : List ParseError := []

/-- The symbols and issues of a file. -/
structure FileResult where
  symbols : FileSymbols := {}
  issues : List Issue := []
deriving Inhabited

namespace FileWalk

/-! ### Naming contexts -/

/-- The last part of a qualified name. -/
def lastPart (name : String) : String :=
  String.ofList (name.toList.reverse.takeWhile (· != '\\')).reverse

def addImport (naming : Naming) (item : Import) : Naming :=
  let shortName := item.rename.getD (lastPart item.name)
  match item.kind with
  | .classLike => naming.importClass shortName item.name
  | .function => naming.importFunction shortName item.name
  | .constant => naming.importConstant shortName item.name

/-- A statement outside functions and classes, with its naming context. -/
abbrev Placed := Naming × Stmt

mutual

/-- The statements of a list in order, each with the context in which it runs. -/
def plan (naming : Naming) : List Stmt → List Placed
  | [] => []
  | stmt :: rest =>
    let (naming', placed) := planStmt naming stmt
    placed ++ plan naming' rest

/-- The context after a statement, and the statements to run for it. -/
def planStmt (naming : Naming) : Stmt → Naming × List Placed
  | ⟨kind, span⟩ =>
    match kind with
    | .namespaced name body => (naming, plan (.ofNamespace name) body)
    | .imports items => (items.foldl addImport naming, [])
    | _ => (naming, [(naming, ⟨kind, span⟩)])

end

/-! ### Declarations -/

/-- A call `define('NAME', value)`. -/
structure Define where
  naming : Naming
  name : String
  value : Expr
  span : Span

/-- Declarations inside the control flow outside functions, and `define` calls. -/
structure Nested where
  declarations : List Placed := []
  defines : List Define := []

/-- The constant that a call defines. -/
def define? (naming : Naming) (expr : Expr) : Option Define :=
  match expr.kind with
  | .call name (first :: second :: _) =>
    match Text.sameFolded (Text.withoutRoot name) "define", first.value.kind with
    | true, .string (some constant) =>
      some { naming, name := constant, value := second.value, span := expr.span }
    | _, _ => none
  | _ => none

def nestedVisitor (naming : Naming) : Visitor Nested where
  onStmt stmt nested :=
    match stmt.kind with
    | .function _ | .classLike _ =>
      ({ nested with declarations := nested.declarations ++ [(naming, stmt)] }, false)
    | _ => (nested, true)
  onExpr expr nested :=
    match define? naming expr with
    | some define => ({ nested with defines := nested.defines ++ [define] }, true)
    | none => (nested, true)

/-- Whether a statement at the top level is a declaration by itself. -/
def declares (stmt : Stmt) : Bool :=
  match stmt.kind with
  | .function _ | .classLike _ | .constants _ => true
  | _ => false

/-- Collects what the statements that are no declarations contain. -/
def nestedIn (placed : List Placed) : Nested :=
  placed.foldl (fun nested (naming, stmt) =>
    if declares stmt then nested else (nestedVisitor naming).stmt stmt nested) {}

def declare (env : FileEnv) (declared : Declared) (placed : Placed) : Declared :=
  let (naming, stmt) := placed
  match stmt.kind with
  | .function decl => Declaration.function env naming decl declared
  | .classLike decl => Declaration.classLike env naming decl declared
  | .constants items => Declaration.constants env naming items declared
  | _ => declared

def declareDefine (env : FileEnv) (declared : Declared) (define : Define) : Declared :=
  { declared with
    symbols := declared.symbols.addConstant define.name
      (Declaration.constant env define.naming define.span define.value .everyone) }

/-- Declares everything that a file declares. -/
def declareAll (env : FileEnv) (placed : List Placed) (report : Report) : Declared :=
  let nested := nestedIn placed
  let direct := placed.foldl (declare env) { report }
  let all := nested.declarations.foldl (declare env) direct
  nested.defines.foldl (declareDefine env) all

/-! ### The whole file -/

/-- Walks the code outside functions as one block; its unused variables are not reported. -/
def walkPlaced (env : FileEnv) (placed : List Placed) (report : Report) : Walk :=
  placed.foldl (fun walk (naming, stmt) => Flow.walkStmt (env.walkEnv naming) stmt walk)
    (.start .empty report)

/-- The global variables that a walk leaves behind. -/
def addGlobals (walk : Walk) (symbols : FileSymbols) : FileSymbols :=
  walk.scope.entries.foldl (fun symbols (name, info) =>
    if isSuperglobal name then symbols else symbols.addGlobal name info.types) symbols

/-- Whether the issues of a file are reported: not if it opts out where that is allowed. -/
def isReported (env : FileEnv) (report : Bool) : Bool :=
  report &&
    !(Text.contains env.source.text disableMarker && env.options.allowsDisable env.source.name)

/-- Analyzes a file, with or without reporting. -/
def run (env : FileEnv) (report : Bool) (parsed : ParsedFile) : FileResult :=
  let silent : Report := { enabled := isReported env report }
  let started := parsed.errors.foldl (fun (report : Report) error =>
    report.add env.source ⟨error.offset, error.offset⟩ .error "parse" error.message) silent
  let placed := plan {} parsed.statements
  let declared := declareAll env placed started
  let walk := walkPlaced env placed declared.report
  { symbols := addGlobals walk declared.symbols
    issues := Issue.sortInFile walk.report.issues }

end FileWalk

end PhpAudit
