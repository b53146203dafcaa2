/-
This file proves that a walk keeps types in normal form: if the scope that it starts with and the index
hold only normal types, then so do the scope, the types of the results and those of the assigned
properties after it, however the body is nested. Closures and arrow functions are walked in scopes of
their own, which start with normal types.
-/

import PhpAudit.Proofs.Flow.Obeying
import PhpAudit.Proofs.Types.Normal

namespace PhpAudit

/-! ### Normal states -/

/-- Every type that the walk has stored is normal. -/
structure Walk.Normal (walk : Walk) : Prop where
  scope : walk.scope.Normal
  returns : walk.returnTypes.Normal
  assigned : ∀ assignment ∈ walk.assignments, assignment.types.Normal

/-- The types of all parameters are normal; a walk takes over no other types from the index. -/
structure Index.Normal (index : Index) : Prop where
  functions : ∀ info ∈ index.functions.values, ParamInfo.AllNormal info.params
  methods : ∀ declarer ∈ Hierarchy.declarers index, ∀ info ∈ declarer.methods.values,
    ParamInfo.AllNormal info.params

/-- The index and the scopes around an arrow function have normal types only. -/
structure Env.Normal (env : Env) : Prop where
  index : env.index.Normal
  enclosing : ∀ scope ∈ env.enclosing, scope.Normal

/-! Normal states keep the law of normal form, whatever is marked. -/

theorem Env.Normal.obeys {env : Env} (known : env.Normal) : env.Obeys .normal where
  index := ⟨known.index.functions, known.index.methods⟩
  naming := env.naming.obeys_normal
  enclosing := known.enclosing

namespace Walk

variable {walk : Walk}

theorem normal_iff_obeys {marked : String → Prop} : walk.Normal ↔ walk.Obeys .normal marked [] :=
  ⟨fun normal => ⟨Scope.normal_iff_obeys.mp normal.scope, normal.returns, normal.assigned⟩,
    fun obeys => ⟨Scope.normal_iff_obeys.mpr obeys.scope, obeys.returns, obeys.assigned⟩⟩

theorem Normal.start {scope : Scope} (normal : scope.Normal) (report : Report) :
    (Walk.start scope report).Normal :=
  normal_iff_obeys.mpr
    (.start (Scope.normal_iff_obeys.mp normal : scope.Obeys .normal (fun _ => False) []) report)

theorem Normal.flushUnused {env : Env} (normal : walk.Normal) : (walk.flushUnused env).Normal :=
  normal_iff_obeys.mpr
    (normal_iff_obeys.mp normal : walk.Obeys .normal (fun _ => False) []).flushUnused

end Walk

namespace Flow

variable {env : Env}

/-- The walk over an expression keeps types normal. -/
theorem walkExpr_keeps (known : env.Normal) (expr : Expr) (walk : Walk) (normal : walk.Normal) :
    (walkExpr env expr walk).Normal := by
  have care : everyExpr (careful true [] []) expr = true := careful_of_lenient expr
  have unmarked : ∀ name, False → name ∈ ([] : List String) := fun _ => False.elim
  exact Walk.normal_iff_obeys.mpr
    (walkExpr_obeys known.obeys unmarked expr care walk (Walk.normal_iff_obeys.mp normal))

/-- The walk over statements keeps types normal. -/
theorem walkStmts_keeps (known : env.Normal) (body : List Stmt) (walk : Walk)
    (normal : walk.Normal) : (walkStmts env body walk).Normal := by
  have care : everyStmt (everyExpr (careful true [] [])) (carefulStmt true [] []) false body = true :=
    carefulStmt_of_lenient false body
  have unmarked : ∀ name, False → name ∈ ([] : List String) := fun _ => False.elim
  exact Walk.normal_iff_obeys.mpr
    (walkStmts_obeys known.obeys unmarked false body care walk (Walk.normal_iff_obeys.mp normal))

/-! ### Types in normal form -/

/--
Types stay in normal form. On normal values, arrays of elements and elements of arrays are what one
started with, and the rules for both give normal values. If the index and the scopes hold only normal
types, so do local types of expressions, and so does every walk over a body or an expression: its scope,
the types of its results, and those of the properties that it assigns.
-/
theorem types_stay_normal :
    (∀ value : TypeValue, value.Normal →
      value.inArray.Normal ∧ value.element.Normal ∧ (∀ key, (value.elementUnder key).Normal) ∧
        value.inArray.element = value ∧ value.element.inArray = value) ∧
    (∀ (scope : Scope) (naming : Naming) (expr : Expr), scope.Normal →
      (Typing.localType scope naming expr).Normal) ∧
    ∀ (env : Env) (walk : Walk), env.Normal → walk.Normal →
      (∀ expr, (walkExpr env expr walk).Normal) ∧ (∀ body, (walkStmts env body walk).Normal) ∧
        ∀ body, (walkBody env body walk).Normal := by
  refine ⟨fun value normal => ?_, fun scope naming expr normal =>
    Typing.normal_localType naming normal expr, fun env walk known normal => ⟨?_, ?_, ?_⟩⟩
  · exact ⟨normal.inArray, normal.element, normal.elementUnder, normal.element_inArray,
      normal.inArray_element⟩
  · exact fun expr => walkExpr_keeps known expr walk normal
  · exact fun body => walkStmts_keeps known body walk normal
  · exact fun body => (walkStmts_keeps known body walk normal).flushUnused

/-- `$a = f(); $b = $a['k'];` -/
def elementOfCall : List Stmt :=
  let var (name : String) (start : Nat) : Expr := ⟨.var name, ⟨start, start + 2⟩⟩
  [⟨.expr ⟨.assign (var "$a" 0) ⟨.call "f" [], ⟨5, 8⟩⟩ .assign false, ⟨0, 8⟩⟩, ⟨0, 9⟩⟩,
    ⟨.expr ⟨.assign (var "$b" 10) ⟨.element (var "$a" 15) (some ⟨.string (some "k"), ⟨18, 21⟩⟩),
      ⟨15, 22⟩⟩ .assign false, ⟨10, 22⟩⟩, ⟨10, 23⟩⟩]

/-- The walk over code that stores an element of what a function returns. -/
theorem types_stay_normal_elementOfCall :
    let value : TypeValue := .elementAt (.functionCall "\\f") "k"
    let walked := walkBody default elementOfCall (.start .empty { enabled := true })
    value.inArray.element = value ∧ value.element.inArray = value ∧
      (walked.scope.types? "$b").map (·.members) = some [value] ∧ walked.Normal := by
  have nothing : (default : Env).Normal :=
    { index :=
        { functions := fun _ member => absurd member List.not_mem_nil
          methods := fun _ member => absurd member List.not_mem_nil }
      enclosing := fun _ member => absurd member List.not_mem_nil }
  obtain ⟨ofValues, _, ofWalks⟩ := types_stay_normal
  obtain ⟨_, _, _, elements, arrays⟩ := ofValues (.elementAt (.functionCall "\\f") "k") (by decide)
  exact ⟨elements, arrays, by decide +kernel,
    (ofWalks default _ nothing (.start Scope.normal_empty _)).2.2 elementOfCall⟩

end Flow

end PhpAudit
