/-
This file walks a syntax tree in source order. A visitor looks at every statement and expression,
threads a state through, and says of each node whether its children are visited too. The bodies of
functions, methods and closures are scopes of their own and are entered only on request.
-/

import PhpAudit.Syntax.Tree

namespace PhpAudit

/-- What to do at each node; the answer `false` skips the children of the node. -/
structure Visitor (State : Type) where
  onStmt : Stmt → State → State × Bool := fun _ state => (state, true)
  onExpr : Expr → State → State × Bool := fun _ state => (state, true)
  /-- Whether to enter the bodies of functions, methods and closures -/
  entersScopes : Bool := false

namespace Visitor

variable {State : Type}

mutual

/-- Visits an expression and then, if the visitor agrees, its children. -/
def expr (visitor : Visitor State) : Expr → State → State
  | ⟨kind, span⟩, state =>
    match visitor.onExpr ⟨kind, span⟩ state with
    | (state, false) => state
    | (state, true) => children visitor kind state

def children (visitor : Visitor State) : ExprKind → State → State
  | .paren inner, state | .isEmpty inner, state | .includeFile inner, state
  | .throw inner, state | .clone inner, state | .yieldFrom inner, state
  | .unary _ inner, state | .property inner _ _, state => expr visitor inner state
  | .array slots, state | .list slots, state => items visitor slots state
  | .element base index, state => optional visitor index (expr visitor base state)
  | .assign target value _ _, state => expr visitor value (expr visitor target state)
  | .binary _ left right, state => expr visitor right (expr visitor left state)
  | .instanceOf subject ref, state => classRef visitor ref (expr visitor subject state)
  | .ternary test yes no, state =>
    expr visitor no (optional visitor yes (expr visitor test state))
  | .call _ list, state => args visitor list state
  | .callValue callee list, state => args visitor list (expr visitor callee state)
  | .methodCall object _ list _, state => args visitor list (expr visitor object state)
  | .staticCall ref _ list, state | .new ref list, state =>
    args visitor list (classRef visitor ref state)
  | .staticProperty ref _, state | .classConstant ref _, state => classRef visitor ref state
  | .isset values, state => exprs visitor values state
  | .closure _ _ _ _ body, state =>
    if visitor.entersScopes then stmts visitor body state else state
  | .arrow _ _ _ body, state => if visitor.entersScopes then expr visitor body state else state
  | .matchOn subject list, state => arms visitor list (expr visitor subject state)
  | .yield key value, state => optional visitor value (optional visitor key state)
  | .var _, state | .dynamicVar _, state | .integer, state | .float, state | .string _, state
  | .interpolated _, state | .boolean _, state | .null, state | .magic _, state
  | .constant _, state | .exit _ _, state | .print _, state | .unmodeled _, state => state

def optional (visitor : Visitor State) : Option Expr → State → State
  | none, state => state
  | some value, state => expr visitor value state

def exprs (visitor : Visitor State) : List Expr → State → State
  | [], state => state
  | value :: rest, state => exprs visitor rest (expr visitor value state)

def items (visitor : Visitor State) : List Item → State → State
  | [], state => state
  | .skip :: rest, state => items visitor rest state
  | .entry key value _ _ :: rest, state =>
    items visitor rest (expr visitor value (optional visitor key state))

def args (visitor : Visitor State) : List Arg → State → State
  | [], state => state
  | ⟨value, _, _⟩ :: rest, state => args visitor rest (expr visitor value state)

def arms (visitor : Visitor State) : List MatchArm → State → State
  | [], state => state
  | ⟨conditions, body⟩ :: rest, state =>
    arms visitor rest (expr visitor body (exprs visitor conditions state))

def classRef (visitor : Visitor State) : ClassRef → State → State
  | .dynamic value, state => expr visitor value state
  | .named _, state | .self, state | .static, state | .parent, state => state

/-- Visits the statements of a list in order. -/
def stmts (visitor : Visitor State) : List Stmt → State → State
  | [], state => state
  | head :: rest, state => stmts visitor rest (stmt visitor head state)

/-- Visits a statement and then, if the visitor agrees, its children. -/
def stmt (visitor : Visitor State) : Stmt → State → State
  | ⟨kind, span⟩, state =>
    match visitor.onStmt ⟨kind, span⟩ state with
    | (state, false) => state
    | (state, true) => parts visitor kind state

def parts (visitor : Visitor State) : StmtKind → State → State
  | .expr value, state => expr visitor value state
  | .echo values, state => exprs visitor values state
  | .returns value, state => optional visitor value state
  | .block body, state | .namespaced _ body, state => stmts visitor body state
  | .branch test body _ rest, state =>
    otherwise visitor rest (stmts visitor body (expr visitor test state))
  | .whileLoop test body, state => stmts visitor body (expr visitor test state)
  | .doWhile body test, state => expr visitor test (stmts visitor body state)
  | .forLoop init test step body, state =>
    stmts visitor body (exprs visitor step (exprs visitor test (exprs visitor init state)))
  | .foreach subject key value _ body, state =>
    stmts visitor body (expr visitor value (optional visitor key (expr visitor subject state)))
  | .switch subject list, state => cases visitor list (expr visitor subject state)
  | .tryCatch body list final _, state =>
    optionalBody visitor final (catches visitor list (stmts visitor body state))
  | .static list, state => bindings visitor list state
  | .function decl, state => if visitor.entersScopes then function visitor decl state else state
  | .classLike decl, state => if visitor.entersScopes then classLike visitor decl state else state
  | .constants list, state => constItems visitor list state
  | .breaks, state | .continues, state | .global _, state | .unset _, state | .imports _, state
  | .nop, state => state

def otherwise (visitor : Visitor State) : Otherwise → State → State
  | .nothing, state => state
  | .orElse body, state => stmts visitor body state
  | .orIf test body _ rest, state =>
    otherwise visitor rest (stmts visitor body (expr visitor test state))

def cases (visitor : Visitor State) : List Case → State → State
  | [], state => state
  | ⟨test, body, _, _⟩ :: rest, state =>
    cases visitor rest (stmts visitor body (optional visitor test state))

def catches (visitor : Visitor State) : List Catch → State → State
  | [], state => state
  | ⟨_, _, body, _⟩ :: rest, state => catches visitor rest (stmts visitor body state)

def optionalBody (visitor : Visitor State) : Option (List Stmt) → State → State
  | none, state => state
  | some body, state => stmts visitor body state

def bindings (visitor : Visitor State) : List Binding → State → State
  | [], state => state
  | ⟨_, value, _⟩ :: rest, state => bindings visitor rest (optional visitor value state)

def constItems (visitor : Visitor State) : List ConstItem → State → State
  | [], state => state
  | ⟨_, value, _⟩ :: rest, state => constItems visitor rest (expr visitor value state)

def function (visitor : Visitor State) : FunctionDecl → State → State
  | ⟨_, _, _, _, _, _, body⟩, state => stmts visitor body state

def classLike (visitor : Visitor State) : ClassDecl → State → State
  | ⟨_, _, _, _, _, _, _, _, _, list⟩, state => members visitor list state

/-- Of the members of a class only the method bodies are visited. -/
def members (visitor : Visitor State) : List Member → State → State
  | [], state => state
  | .method decl :: rest, state => members visitor rest (method visitor decl state)
  | .property .. :: rest, state | .constants .. :: rest, state | .enumCase .. :: rest, state
  | .traitUse .. :: rest, state => members visitor rest state

def method (visitor : Visitor State) : MethodDecl → State → State
  | ⟨_, _, _, _, _, body, _, _, _, _⟩, state => optionalBody visitor body state

end

end Visitor

end PhpAudit
