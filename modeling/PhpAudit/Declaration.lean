/-
This file turns declarations into the symbols that the index records. The body of a function or
method is walked to learn what it returns, how it ends and whether it is pure.
-/

import PhpAudit.Constant
import PhpAudit.Flow.Body

namespace PhpAudit

/-- What the declarations of one file read and never change. -/
structure FileEnv where
  index : Index
  options : Options
  source : Source
deriving Inhabited

/-- The symbols and issues of a file so far. -/
structure Declared where
  symbols : FileSymbols := {}
  report : Report
deriving Inhabited

namespace FileEnv

/-- The environment of a walk in the given naming context. -/
def walkEnv (env : FileEnv) (naming : Naming) : Env where
  index := env.index
  options := env.options
  naming := naming
  source := env.source

def position (env : FileEnv) (span : Span) : Position where
  file := env.source.name
  line := env.source.line span.start
  start := span.start
  stop := span.stop

end FileEnv

namespace Declaration

/-- The type of an expression that stands outside any scope. -/
def staticType (naming : Naming) (expr : Expr) : TypeSet :=
  Typing.localType .empty naming expr

/-- The declared types, none without a hint. -/
def hinted (naming : Naming) (hint : Option String) : TypeSet :=
  (hint.map (Hint.read naming)).getD .empty

/-! ### Functions and methods -/

/-- The head of a function or method. -/
structure Signature where
  name : String
  span : Span
  params : List Param
  hint : Option String

/-- What a body returns, joined to what its hint declares; a body that returns nothing is void. -/
def resultTypes (hint : TypeSet) (walk : Walk) : TypeSet :=
  if walk.returnsValue then
    let joined := hint.append walk.returnTypes
    if walk.bareReturn then joined.insert (.concrete "null") else joined
  else if hint.isEmpty then
    .void
  else
    hint

/-- The scope in which a body starts: its parameters, and `$this` in a method of an object. -/
def bodyScope (params : List ParamInfo) (this : Option String) : Scope :=
  let bound := Scope.empty.bind params
  match this with
  | some owner => { bound.add "$this" (.named owner) true with inMethod := true }
  | none => bound

/-- A described body: the symbol, the assignments to properties in it, and the report. -/
structure Described where
  info : FunctionInfo
  assignments : List PropertyAssignment := []
  report : Report

/-- Describes a function or method; one without a body is known by its hint alone. -/
def describe (env : FileEnv) (naming : Naming) (base : Option BaseMethod) (this : Option String)
    (signature : Signature) (body : Option (List Stmt)) (report : Report) : Described :=
  let params := Param.describe naming base signature.params
  let hint := hinted naming signature.hint
  let info : FunctionInfo :=
    { name := signature.name
      position := env.position signature.span
      params
      required := Param.required signature.params
      types := hint }
  match body with
  | none => { info, report }
  | some body =>
    let walk := Flow.walkBody (env.walkEnv naming) body
      (Flow.startBody (bodyScope params this) params report)
    { info :=
        { info with
          types := resultTypes hint walk
          exits := walk.finalExits
          isPure := walk.isPure }
      assignments := walk.assignments
      report := walk.report }

def function (env : FileEnv) (naming : Naming) (decl : FunctionDecl) (declared : Declared) :
    Declared :=
  let name := naming.declared decl.name
  let described := describe env (naming.enterFunction name) none none
    { name, span := decl.span, params := decl.params, hint := decl.hint } (some decl.body)
    declared.report
  { symbols := declared.symbols.addFunction described.info, report := described.report }

/-! ### Constants -/

def constant (env : FileEnv) (naming : Naming) (span : Span) (value : Expr)
    (visibility : Visibility) : ConstInfo where
  position := env.position span
  types := staticType naming value
  visibility := visibility
  value := ConstValue.ofExpr? env.source value

def constants (env : FileEnv) (naming : Naming) (items : List ConstItem) (declared : Declared) :
    Declared :=
  { declared with
    symbols := items.foldl (fun symbols item =>
      symbols.addConstant (naming.declared item.name)
        (constant env naming item.span item.value .everyone)) declared.symbols }

/-! ### Classes -/

/-- A class under declaration, and the assignments to its properties met so far. -/
structure ClassBody where
  info : ClassInfo
  assignments : List PropertyAssignment := []
  report : Report

/-- The properties that the parameters of a constructor declare. -/
def promote (env : FileEnv) (decl : MethodDecl) (params : List ParamInfo) (info : ClassInfo) :
    ClassInfo :=
  if Text.sameFolded decl.name "__construct" then
    (decl.params.zip params).foldl (fun info (param, described) =>
      match param.promoted with
      | some visibility =>
        { info with
          properties := info.properties.insert (Text.withoutDollar param.name)
            { position := env.position param.span, types := described.types, visibility } }
      | none => info) info
  else
    info

/-- Adds a method. The interfaces of the class, if it has any, supply omitted parameter types. -/
def method (env : FileEnv) (naming : Naming) (withBase : Bool) (decl : MethodDecl)
    (body : ClassBody) : ClassBody :=
  let base := if withBase then some ⟨naming.owner, decl.name⟩ else none
  let this := if decl.isStatic then none else some naming.owner
  let described := describe env (naming.enterFunction decl.name) base this
    { name := decl.name, span := decl.span, params := decl.params, hint := decl.hint } decl.body
    body.report
  let info :=
    { described.info with
      visibility := decl.visibility
      isStatic := decl.isStatic
      isAbstract := decl.isAbstract || body.info.kind == .interface
      isFinal := decl.isFinal }
  { info := (promote env decl info.params body.info).addMethod info
    assignments := body.assignments ++ described.assignments
    report := described.report }

/-- Adds properties: the type is the hint joined with the type of the initial value. -/
def properties (env : FileEnv) (naming : Naming) (items : List Binding) (hint : Option String)
    (isStatic : Bool) (visibility : Visibility) (info : ClassInfo) : ClassInfo :=
  items.foldl (fun info item =>
    let key := if isStatic then item.name else Text.withoutDollar item.name
    let types := match item.value with
      | some value => (hinted naming hint).append (staticType naming value)
      | none => hinted naming hint
    { info with
      properties := info.properties.insert key
        { position := env.position item.span, types, visibility } }) info

def member (env : FileEnv) (naming : Naming) (withBase : Bool) (body : ClassBody) :
    Member → ClassBody
  | .method decl => method env naming withBase decl body
  | .property items hint isStatic visibility =>
    { body with info := properties env naming items hint isStatic visibility body.info }
  | .constants items visibility =>
    { body with
      info :=
        { body.info with
          constants := items.foldl (fun constants item =>
            constants.insert item.name (constant env naming item.span item.value visibility))
            body.info.constants } }
  | .enumCase name _ span =>
    { body with
      info :=
        { body.info with
          constants := body.info.constants.insert name
            { position := env.position span, types := .named naming.owner } } }
  | .traitUse names =>
    { body with
      info :=
        { body.info with
          traits := names.foldl (fun traits name => traits.insert (naming.className name))
            body.info.traits } }

/-- Widens the declared properties by what the methods assign to them. -/
def collectAssignments (assignments : List PropertyAssignment) (info : ClassInfo) : ClassInfo :=
  assignments.foldl (fun info assignment =>
    match info.properties[assignment.name]? with
    | some property =>
      { info with
        properties := info.properties.insert assignment.name
          { property with types := property.types.union assignment.types } }
    | none => info) info

/-- The interfaces of a class; enums implement those of enums. -/
def interfacesOf (naming : Naming) (decl : ClassDecl) : Std.TreeSet String :=
  let written := Std.TreeSet.ofList (decl.interfaces.map naming.className)
  match decl.kind, decl.backing with
  | .enum, some _ => (written.insert "\\UnitEnum").insert "\\BackedEnum"
  | .enum, none => written.insert "\\UnitEnum"
  | _, _ => written

def classLike (env : FileEnv) (naming : Naming) (decl : ClassDecl) (declared : Declared) :
    Declared :=
  let name := naming.declared decl.name
  let parent := if decl.kind == .ordinary then decl.parents.head?.map naming.className else none
  let inner := naming.enterClass name (parent.getD "") (decl.kind == .trait)
  let interfaces := interfacesOf naming decl
  let info : ClassInfo :=
    { name
      position := env.position decl.span
      kind := decl.kind
      isAbstract := decl.isAbstract
      isFinal := decl.isFinal || decl.kind == .enum
      parent
      parentInterfaces :=
        if decl.kind == .interface then decl.parents.map naming.className else []
      interfaces }
  let body := decl.members.foldl (member env inner !interfaces.isEmpty)
    { info, report := declared.report }
  { symbols := declared.symbols.addClass (collectAssignments body.assignments body.info)
    report := body.report }

end Declaration

end PhpAudit
