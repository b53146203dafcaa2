/-
This file says what the walk over a body learns from an index that is still being filled. Classes,
and what callees end in, are looked up in a complete index only. What is left are the functions that
the body calls by name: whether one is pure, and which arguments it takes by reference. So two
incomplete indexes that tell the same of these functions give a walk the same answers.
-/

import PhpAudit.Proofs.Flow.Hushing

namespace PhpAudit

/-! ### Called functions -/

mutual

/-- The names of the functions that an expression calls, those in closures included. -/
def callsExpr : Expr → List String
  | ⟨kind, _⟩ => callsKind kind

def callsKind : ExprKind → List String
  | .call name args => name :: callsArgs args
  | .paren inner | .clone inner | .includeFile inner | .yieldFrom inner | .unary _ inner
  | .property inner _ _ | .isEmpty inner | .throw inner => callsExpr inner
  | .array items | .list items => callsItems items
  | .element base index => callsExpr base ++ callsOptional index
  | .assign target value _ _ => callsExpr target ++ callsExpr value
  | .binary _ left right => callsExpr left ++ callsExpr right
  | .instanceOf subject ref => callsExpr subject ++ callsRef ref
  | .ternary test yes no => callsExpr test ++ callsOptional yes ++ callsExpr no
  | .callValue function args => callsExpr function ++ callsArgs args
  | .methodCall object _ args _ => callsExpr object ++ callsArgs args
  | .staticCall ref _ args | .new ref args => callsRef ref ++ callsArgs args
  | .staticProperty ref _ | .classConstant ref _ => callsRef ref
  | .isset values => callsExprs values
  | .closure _ _ _ _ body => callsStmts body
  | .arrow _ _ _ body => callsExpr body
  | .matchOn subject arms => callsExpr subject ++ callsArms arms
  | .yield key value => callsOptional key ++ callsOptional value
  | .var _ | .dynamicVar _ | .integer | .float | .string _ | .interpolated _ | .boolean _ | .null
  | .magic _ | .constant _ | .exit _ _ | .print _ | .unmodeled _ => []

def callsExprs : List Expr → List String
  | [] => []
  | value :: rest => callsExpr value ++ callsExprs rest

def callsOptional : Option Expr → List String
  | none => []
  | some value => callsExpr value

def callsItems : List Item → List String
  | [] => []
  | .skip :: rest => callsItems rest
  | .entry key value _ _ :: rest => callsOptional key ++ callsExpr value ++ callsItems rest

def callsArgs : List Arg → List String
  | [] => []
  | ⟨value, _, _⟩ :: rest => callsExpr value ++ callsArgs rest

def callsRef : ClassRef → List String
  | .dynamic value => callsExpr value
  | .named _ | .self | .static | .parent => []

def callsArms : List MatchArm → List String
  | [] => []
  | ⟨conditions, body⟩ :: rest => callsExprs conditions ++ callsExpr body ++ callsArms rest

/-- The names of the functions that statements call. Declarations among them are left out: they are
code of their own. -/
def callsStmts : List Stmt → List String
  | [] => []
  | stmt :: rest => callsStmt stmt ++ callsStmts rest

def callsStmt : Stmt → List String
  | ⟨kind, _⟩ => callsStmtKind kind

def callsStmtKind : StmtKind → List String
  | .expr value => callsExpr value
  | .echo values => callsExprs values
  | .returns value => callsOptional value
  | .block body => callsStmts body
  | .branch test body _ rest => callsExpr test ++ callsStmts body ++ callsOtherwise rest
  | .whileLoop test body => callsExpr test ++ callsStmts body
  | .doWhile body test => callsStmts body ++ callsExpr test
  | .forLoop init test step body =>
    callsExprs init ++ callsExprs test ++ callsExprs step ++ callsStmts body
  | .foreach subject key value _ body =>
    callsExpr subject ++ callsOptional key ++ callsExpr value ++ callsStmts body
  | .switch subject cases => callsExpr subject ++ callsCases cases
  | .tryCatch body catches final _ =>
    callsStmts body ++ callsCatches catches ++ callsOptionalStmts final
  | .static bindings => callsBindings bindings
  | .constants items => callsConstItems items
  | .breaks | .continues | .global _ | .unset _ | .namespaced _ _ | .imports _ | .function _
  | .classLike _ | .nop => []

def callsOtherwise : Otherwise → List String
  | .nothing => []
  | .orElse body => callsStmts body
  | .orIf test body _ rest => callsExpr test ++ callsStmts body ++ callsOtherwise rest

def callsCases : List Case → List String
  | [] => []
  | ⟨test, body, _, _⟩ :: rest => callsOptional test ++ callsStmts body ++ callsCases rest

def callsCatches : List Catch → List String
  | [] => []
  | ⟨_, _, body, _⟩ :: rest => callsStmts body ++ callsCatches rest

def callsOptionalStmts : Option (List Stmt) → List String
  | none => []
  | some last => callsStmts last

def callsBindings : List Binding → List String
  | [] => []
  | ⟨_, value, _⟩ :: rest => callsOptional value ++ callsBindings rest

def callsConstItems : List ConstItem → List String
  | [] => []
  | ⟨_, value, _⟩ :: rest => callsExpr value ++ callsConstItems rest

end

/-- The function that an index records under the name or else under the fallback. -/
def Index.callee? (index : Index) (candidates : Candidates) : Option FunctionInfo :=
  index.function? candidates.name <|> candidates.fallback.bind index.function?

/-- Two functions are alike to a caller that is indexed: both are pure or neither is, and they take
the same arguments by reference. A function that is not known is not pure and takes none. -/
structure CalledAlike (first second : Option FunctionInfo) : Prop where
  isPure : first.any (·.isPure) = second.any (·.isPure)
  refParam : ∀ position, Flow.refParam? (first.map (·.params)) position =
    Flow.refParam? (second.map (·.params)) position

/-! ### Environments that differ in the index -/

/-- The environment with another index. -/
def Env.withIndex (env : Env) (index : Index) : Env :=
  { env with index }

/-- The functions of the given names are alike in both indexes. -/
def Alike (env : Env) (index : Index) (names : List String) : Prop :=
  ∀ name ∈ names, CalledAlike (index.callee? (env.naming.functionName name))
    (env.index.callee? (env.naming.functionName name))

/-- The other index gives a walk that calls functions of the given names the same answers: it is the
same index, or neither is complete and the functions are alike. -/
def Answers (env : Env) (index : Index) (names : List String) : Prop :=
  index = env.index ∨
    env.index.complete = false ∧ index.complete = false ∧ Alike env index names

section

variable {env : Env} {index : Index}

theorem Answers.same (names : List String) : Answers env env.index names :=
  .inl rfl

theorem Answers.mono {names others : List String} (answers : Answers env index names)
    (subset : others ⊆ names) : Answers env index others :=
  answers.imp_right fun ⟨before, after, alike⟩ =>
    ⟨before, after, fun name listed => alike name (subset listed)⟩

theorem Answers.left {first second : List String} (answers : Answers env index (first ++ second)) :
    Answers env index first :=
  answers.mono (List.subset_append_left first second)

theorem Answers.right {first second : List String} (answers : Answers env index (first ++ second)) :
    Answers env index second :=
  answers.mono (List.subset_append_right first second)

theorem Answers.tail {name : String} {names : List String}
    (answers : Answers env index (name :: names)) : Answers env index names :=
  answers.mono (List.subset_cons_self name names)

/-- Neither the naming nor the index depends on the scopes around the code. -/
theorem Answers.enclosedBy {names : List String} (answers : Answers env index names)
    (scopes : List Scope) : Answers { env with enclosing := scopes } index names :=
  answers

/-! ### Steps that do not ask the index -/

@[simp]
theorem naming_withIndex : (env.withIndex index).naming = env.naming := rfl

theorem enclosing_withIndex (scopes : List Scope) :
    (⟨(env.withIndex index).index, (env.withIndex index).options, env.naming,
      (env.withIndex index).source, scopes⟩ : Env) =
      Env.withIndex { env with enclosing := scopes } index := rfl

@[simp]
theorem options_withIndex : (env.withIndex index).options = env.options := rfl

namespace Walk

@[simp]
theorem read_withIndex : Walk.read (env.withIndex index) = Walk.read env := rfl

@[simp]
theorem readAll_withIndex : Walk.readAll (env.withIndex index) = Walk.readAll env := rfl

@[simp]
theorem flushUnused_withIndex : Walk.flushUnused (env.withIndex index) = Walk.flushUnused env := rfl

@[simp]
theorem localType_withIndex : Walk.localType (env.withIndex index) = Walk.localType env := rfl

@[simp]
theorem checkDeadCode_withIndex :
    Walk.checkDeadCode (env.withIndex index) = Walk.checkDeadCode env := rfl

end Walk

namespace Flow

@[simp]
theorem assignOwnProperty_withIndex :
    assignOwnProperty (env.withIndex index) = assignOwnProperty env := rfl

@[simp]
theorem assignOwnStatic_withIndex :
    assignOwnStatic (env.withIndex index) = assignOwnStatic env := rfl

@[simp]
theorem globalName_withIndex : globalName (env.withIndex index) = globalName env := rfl

@[simp]
theorem capture_withIndex : capture (env.withIndex index) = capture env := rfl

@[simp]
theorem checkCaseBreak_withIndex : checkCaseBreak (env.withIndex index) = checkCaseBreak env := rfl

@[simp]
theorem bindCaught_withIndex : bindCaught (env.withIndex index) = bindCaught env := rfl

@[simp]
theorem checkFinally_withIndex : checkFinally (env.withIndex index) = checkFinally env := rfl

@[simp]
theorem checkForeachKey_withIndex :
    checkForeachKey (env.withIndex index) = checkForeachKey env := rfl

end Flow

/-! ### Steps that ask the index -/

section

variable (incomplete : env.index.complete = false)

include incomplete

theorem Walk.leaveByCallee_incomplete (exits : Exits) (walk : Walk) :
    walk.leaveByCallee env exits = walk := by
  rw [Walk.leaveByCallee, incomplete, Bool.and_false]
  rfl

theorem Walk.lookupMethod?_incomplete (owner method : String) :
    lookupMethod? env owner method = none := by
  rw [lookupMethod?, incomplete]
  exact if_neg Bool.false_ne_true

theorem Walk.lookupMethodOf?_incomplete (walk : Walk) (object : Expr) (method : String) :
    walk.lookupMethodOf? env object method = none := by
  rw [lookupMethodOf?, incomplete]
  exact if_neg Bool.false_ne_true

end

section

variable {names : List String} (answers : Answers env index names)

include answers

theorem Answers.leaveByCallee_hush (exits : Exits) (walk : Walk) :
    walk.hush.leaveByCallee (env.withIndex index) exits = (walk.leaveByCallee env exits).hush := by
  rcases answers with rfl | ⟨before, after, _⟩
  · exact walk.leaveByCallee_hush env exits
  · rw [Walk.leaveByCallee_incomplete after, Walk.leaveByCallee_incomplete before]

theorem Answers.leftByCallee_hush (name : String) (walk : Walk) :
    (match Flow.callee? (env.withIndex index) name with
      | some info => walk.hush.leaveByCallee (env.withIndex index) info.exits
      | none => walk.hush) =
    (match Flow.callee? env name with
      | some info => walk.leaveByCallee env info.exits
      | none => walk).hush := by
  have same (other : Option FunctionInfo) :
      (match other with
        | some info => walk.hush.leaveByCallee (env.withIndex index) info.exits
        | none => walk.hush) =
      (match other with
        | some info => walk.leaveByCallee env info.exits
        | none => walk).hush := by
    cases other with
    | none => rfl
    | some info => exact answers.leaveByCallee_hush info.exits walk
  rcases answers with rfl | ⟨before, after, _⟩
  · exact same _
  · have unchanged (exits : Exits) (walk : Walk) :
        walk.leaveByCallee (env.withIndex index) exits = walk :=
      Walk.leaveByCallee_incomplete after exits walk
    cases Flow.callee? (env.withIndex index) name <;> cases Flow.callee? env name <;>
      simp only [Walk.leaveByCallee_incomplete before, unchanged]

theorem Answers.leaveByFound_hush (found : Option FoundMethod) (walk : Walk) :
    walk.hush.leaveByFound (env.withIndex index) found = (walk.leaveByFound env found).hush := by
  cases found with
  | none => rfl
  | some found => exact answers.leaveByCallee_hush _ walk

theorem Answers.lookupMethod? (owner method : String) :
    Walk.lookupMethod? (env.withIndex index) owner method = Walk.lookupMethod? env owner method := by
  rcases answers with rfl | ⟨before, after, _⟩
  · rfl
  · rw [Walk.lookupMethod?_incomplete after, Walk.lookupMethod?_incomplete before]

theorem Answers.lookupMethodOf?_hush (walk : Walk) (object : Expr) :
    walk.hush.lookupMethodOf? (env.withIndex index) object = walk.lookupMethodOf? env object := by
  rcases answers with rfl | ⟨before, after, _⟩
  · rfl
  · funext method
    rw [Walk.lookupMethodOf?_incomplete after, Walk.lookupMethodOf?_incomplete before]

theorem Answers.constructor? (ref : ClassRef) :
    Flow.constructor? (env.withIndex index) ref = Flow.constructor? env ref := by
  unfold Flow.constructor?
  exact Option.bind_congr fun owner _ => answers.lookupMethod? owner "__construct"

theorem Answers.staticCallee? (ref : ClassRef) (method : Option String) :
    Flow.staticCallee? (env.withIndex index) ref method = Flow.staticCallee? env ref method := by
  unfold Flow.staticCallee?
  rw [naming_withIndex]
  split
  · exact answers.lookupMethod? _ _
  · rfl

end

/-- What the walk over a call by name asks about the callee. -/
theorem Answers.callee {name : String} {names : List String}
    (answers : Answers env index (name :: names)) :
    CalledAlike (Flow.callee? (env.withIndex index) name) (Flow.callee? env name) := by
  rcases answers with rfl | ⟨_, _, alike⟩
  · exact ⟨rfl, fun _ => rfl⟩
  · exact alike name List.mem_cons_self

end

end PhpAudit
