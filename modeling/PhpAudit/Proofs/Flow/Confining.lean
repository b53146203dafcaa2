/-
This file says when the markers of tests stay where they were given. A test by `isset` or `!empty` gives
a variable that is not defined its marker as a type, and the end of the statement takes it back from
that variable. But the marker is a type like any other, and the guarded code can copy it: a `return`
copies it to the types of the results, an assignment to another variable or to a property, a `foreach`
to the variable of its elements, a `static` binding to its variable. From there nothing takes it back.

So markers stay confined if no test gives one to a variable whose type its true outcome copies. A
variable that is sure to be defined gets no marker, whatever the tests ask.
-/

import PhpAudit.Proofs.Flow.Merging
import PhpAudit.Proofs.Flow.Obeying
import PhpAudit.Proofs.Types.Unmarked

namespace PhpAudit

/-! ### States without markers -/

/-- No marker occurs in the types that the walk has stored. -/
structure Walk.Unmarked (walk : Walk) : Prop where
  scope : walk.scope.Every fun _ => TypeValue.Unmarked
  returns : walk.returnTypes.Every TypeValue.Unmarked
  assigned : ∀ assignment ∈ walk.assignments, assignment.types.Every TypeValue.Unmarked

/-- No marker occurs in the types of parameters; a walk takes over no other types from the index. -/
structure Index.Unmarked (index : Index) : Prop where
  functions : ∀ info ∈ index.functions.values, ∀ param ∈ info.params,
    param.types.Every TypeValue.Unmarked
  methods : ∀ declarer ∈ Hierarchy.declarers index, ∀ info ∈ declarer.methods.values,
    ∀ param ∈ info.params, param.types.Every TypeValue.Unmarked

/-- No marker comes from the index, the names of classes or the scopes around an arrow function. -/
structure Env.Unmarked (env : Env) : Prop where
  index : env.index.Unmarked
  naming : env.naming.Rooted
  enclosing : ∀ scope ∈ env.enclosing, scope.Every fun _ => TypeValue.Unmarked

theorem Env.Unmarked.obeys {env : Env} (known : env.Unmarked) : env.Obeys .unmarked where
  index := ⟨known.index.functions, known.index.methods⟩
  naming := known.naming.obeys
  enclosing := known.enclosing

theorem Walk.unmarked_iff_obeys {walk : Walk} {sure : List String} :
    walk.Obeys .unmarked (fun _ => False) sure ↔
      walk.Unmarked ∧ ∀ name ∈ sure, walk.scope.has name = true := by
  have permitted (name : String) (value : TypeValue) :
      TypeLaw.unmarked.Permits (fun _ => False) name value ↔ value.Unmarked :=
    ⟨fun permitted => permitted.resolve_right fun marker => marker.1, .inl⟩
  constructor
  · exact fun obeys => ⟨⟨obeys.scope.types.mono fun name value => (permitted name value).mp,
      obeys.returns, obeys.assigned⟩, obeys.scope.defined⟩
  · exact fun both => ⟨⟨both.1.scope.mono fun name value => (permitted name value).mpr, both.2⟩,
      both.1.returns, both.1.assigned⟩

namespace Flow

/-! ### Code that confines markers -/

/-- Where some variables are sure to be defined, and are never unset, no test gives a marker to a
variable whose type is copied in the test or in its true outcome; and no cast names a marker. -/
def confinesMarkers (sure : List String) (body : List Stmt) : Bool :=
  everyStmt (everyExpr (confines sure))
    (fun inLoop kind => unsetsNone sure kind && confinesStmt sure inLoop kind) false body

theorem everyStmt_careful_of_confinesMarkers {sure : List String} {body : List Stmt}
    (confined : confinesMarkers sure body = true) :
    everyStmt (everyExpr (careful false sure [])) (carefulStmt false sure []) false body = true := by
  have ofExpr (kind : ExprKind) (own : confines sure kind = true) :
      careful false sure [] kind = true := by
    rw [careful, own, copiesNone_nil]
    rfl
  have ofStmt (inLoop : Bool) (kind : StmtKind)
      (own : (unsetsNone sure kind && confinesStmt sure inLoop kind) = true) :
      carefulStmt false sure [] inLoop kind = true := by
    rwa [carefulStmt, copiesNoneStmt_nil, Bool.and_true, Bool.false_or]
  exact everyStmt_mono (everyExpr_mono ofExpr) ofStmt false body confined

/--
Markers never leave the statement that guards them, as long as what its tests may mark is copied neither
by the tests nor by their true outcomes: if no type in the scope, in the results or in the assigned
properties had a marker before a walk over such code, none has one after it, however the code is nested.
What is sure to be defined before, and is never unset, may be copied anywhere.
-/
theorem markers_stay_confined (env : Env) (sure : List String) (body : List Stmt) (walk : Walk)
    (known : env.Unmarked) (unmarked : walk.Unmarked)
    (defined : ∀ name ∈ sure, walk.scope.has name = true)
    (confined : confinesMarkers sure body = true) : (walkStmts env body walk).Unmarked := by
  have started : walk.Obeys .unmarked (fun _ => False) sure :=
    Walk.unmarked_iff_obeys.mpr ⟨unmarked, defined⟩
  have within : ∀ name, False → name ∈ ([] : List String) := fun _ => False.elim
  exact (Walk.unmarked_iff_obeys.mp (walkStmts_obeys known.obeys within false body
    (everyStmt_careful_of_confinesMarkers confined) walk started)).1

/-- `$y = isset($p) ? $p : 1;`, and then
`if (isset($x)) { $y = 1; if (!empty($x)) { return $y; } } else { $x = $y; }` -/
def guardedTwice : List Stmt :=
  let var (name : String) (start : Nat) : Expr := ⟨.var name, ⟨start, start + 2⟩⟩
  let assign (target value : Expr) (start length : Nat) : Stmt :=
    ⟨.expr ⟨.assign target value .assign false, ⟨start, start + length - 1⟩⟩, ⟨start, start + length⟩⟩
  let chosen : Expr :=
    ⟨.ternary ⟨.isset [var "$p" 11], ⟨5, 14⟩⟩ (some (var "$p" 17)) ⟨.integer, ⟨22, 23⟩⟩, ⟨5, 23⟩⟩
  let filled : Expr := ⟨.unary .not ⟨.isEmpty (var "$x" 62), ⟨56, 65⟩⟩, ⟨55, 65⟩⟩
  let inner : Stmt :=
    ⟨.branch filled [⟨.returns (some (var "$y" 76)), ⟨69, 79⟩⟩] ⟨67, 81⟩ .nothing, ⟨51, 81⟩⟩
  [assign (var "$y" 0) chosen 0 24,
    ⟨.branch ⟨.isset [var "$x" 35], ⟨29, 38⟩⟩
      [assign (var "$y" 42) ⟨.integer, ⟨47, 48⟩⟩ 42 7, inner] ⟨40, 83⟩
      (.orElse [assign (var "$x" 91) (var "$y" 96) 91 8]), ⟨25, 101⟩⟩]

/-- In a namespace, with `$p` defined before. -/
theorem markers_stay_confined_guardedTwice :
    let env : Env := { (default : Env) with naming := .ofNamespace (some "App") }
    let start : Walk := .start (.add .empty "$p" (.named "string") true) { enabled := true }
    confinesMarkers ["$p"] guardedTwice = true ∧ (walkStmts env guardedTwice start).Unmarked := by
  intro env start
  have nothing : env.Unmarked :=
    { index :=
        { functions := fun _ member => absurd member List.not_mem_nil
          methods := fun _ member => absurd member List.not_mem_nil }
      naming := Naming.rooted_ofNamespace (some "App")
      enclosing := fun _ member => absurd member List.not_mem_nil }
  have unmarked : start.Unmarked :=
    { scope := Scope.every_empty.add "$p" (TypeSet.every_singleton (by decide)) true
      returns := TypeSet.every_empty
      assigned := fun _ member => absurd member List.not_mem_nil }
  have confined : confinesMarkers ["$p"] guardedTwice = true := by decide
  exact ⟨confined, markers_stay_confined env ["$p"] guardedTwice start nothing unmarked
    (by decide) confined⟩

/-! ### Markers that escape -/

/-- What a variable may be, a `return` of it copies to the types of the results. -/
theorem mem_returnTypes_of_mayBe (env : Env) {walk : Walk} {name : String} {value : TypeValue}
    (has : walk.scope.has name = true) (mayBe : walk.scope.MayBe name value) (span outer : Span) :
    value ∈ (walkStmts env [⟨.returns (some ⟨.var name, span⟩), outer⟩] walk).returnTypes.members := by
  let checked := walk.checkDeadCode env ⟨.returns (some ⟨.var name, span⟩), outer⟩
  have same : checked.scope = walk.scope := by
    unfold checked Walk.checkDeadCode
    dsimp only
    split_ifs <;> rfl
  have kept : (checked.read env name span).scope = checked.scope := by
    have discarded : ((checked.checkDiscard env name span).untrack env name).scope =
        checked.scope := by
      unfold Walk.checkDiscard
      split <;> rfl
    unfold Walk.read
    dsimp only
    rw [discarded, same, has, Bool.true_or, Bool.true_or, if_pos rfl, discarded, same]
  rw [walkStmts, walkStmts, walkStmt, walkStmtKind.eq_def]
  dsimp only
  refine TypeSet.mem_append.mpr (.inr ?_)
  obtain ⟨info, found, member⟩ := mayBe
  rw [walkExpr, walkKind]
  unfold Walk.localType
  rw [kept, same, Typing.localType, Typing.localKind, Scope.types?, found]
  exact member

/-- The results of an `if` without an `else` are those of its branch. -/
theorem returnTypes_branch (env : Env) (test : Expr) (body : List Stmt) (span : Span) (walk : Walk) :
    (walkStmtKind env (.branch test body span .nothing) walk).returnTypes =
      let split := (walkTest env false false test (.start walk [])).split walk.block
      (walkStmts env body { split.walk with block := split.yes }).returnTypes := by
  have dropped (markers : List String) (walk : Walk) :
      (walk.dropMarkers markers).returnTypes = walk.returnTypes := by
    obtain ⟨scope, equal⟩ := Walk.dropMarkers_eq markers walk
    rw [equal]
    rfl
  rw [walkStmtKind.eq_def]
  dsimp only
  rw [walkOtherwise]
  unfold Chain.close
  rw [dropped]
  split <;> rfl

/-- A test by `isset` for a variable that is not defined gives the marker to it. -/
theorem mayBe_walkTest_isset (env : Env) (guard : Guard) {name : String}
    (undefined : guard.walk.scope.has name = false) (span outer : Span) :
    let after := walkTest env false false ⟨.isset [⟨.var name, span⟩], outer⟩ guard
    after.walk.scope.has name = true ∧
      after.walk.scope.MayBe name (.concrete (issetMarker name)) := by
  intro after
  have marked : after.walk.scope =
      guard.walk.scope.add name (.named (issetMarker name)) true := by
    unfold after
    simp only [walkTest, walkProbes, walkProbe, Guard.markIsset, Guard.mark, Expr.rootName?,
      List.foldl_cons, List.foldl_nil, undefined, if_neg Bool.false_ne_true]
    rfl
  rw [marked, Scope.has_add]
  exact ⟨by simp, Scope.mayBe_add.mpr (.inr ⟨rfl, List.mem_singleton_self _⟩)⟩

/-- `if (isset($x)) { return $x; }` returns the marker, in every state in which `$x` is not defined. -/
theorem mem_returnTypes_of_isset (env : Env) {walk : Walk} {name : String}
    (undefined : walk.scope.has name = false) (span outer inner last bodySpan : Span) :
    .concrete (issetMarker name) ∈
      (walkStmtKind env (.branch ⟨.isset [⟨.var name, span⟩], outer⟩
        [⟨.returns (some ⟨.var name, inner⟩), last⟩] bodySpan .nothing) walk).returnTypes.members := by
  obtain ⟨has, mayBe⟩ := mayBe_walkTest_isset env (.start walk []) undefined span outer
  rw [returnTypes_branch]
  exact mem_returnTypes_of_mayBe env has mayBe inner last

/-- `if (isset($x)) { return $x; }` leaves the marker in the types of the results, and
`if (isset($x)) { $y = $x; }` leaves it in those of `$y`, where no marker was before. -/
theorem copied_markers_escape :
    let asked : Expr := ⟨.isset [⟨.var "$x", ⟨10, 12⟩⟩], ⟨4, 13⟩⟩
    let returned : Stmt := ⟨.returns (some ⟨.var "$x", ⟨24, 26⟩⟩), ⟨17, 27⟩⟩
    let copied : Stmt :=
      ⟨.expr ⟨.assign ⟨.var "$y", ⟨17, 19⟩⟩ ⟨.var "$x", ⟨22, 24⟩⟩ .assign false, ⟨17, 24⟩⟩, ⟨17, 25⟩⟩
    let marker : TypeValue := .concrete "isset_$x"
    (startWith []).Unmarked ∧
      ¬ (walkStmtKind default (.branch asked [returned] ⟨15, 29⟩ .nothing) (startWith [])).Unmarked ∧
      (walkStmtKind default (.branch asked [copied] ⟨15, 27⟩ .nothing) (startWith [])).scope.MayBe
        "$y" marker := by
  intro asked returned copied marker
  have started : (startWith []).Unmarked :=
    { scope := Scope.every_empty
      returns := TypeSet.every_empty
      assigned := fun _ member => absurd member List.not_mem_nil }
  have escaped : marker ∈ (walkStmtKind default (.branch asked [returned] ⟨15, 29⟩ .nothing)
      (startWith [])).returnTypes.members :=
    mem_returnTypes_of_isset default rfl ..
  have marked : ¬ marker.Unmarked := by decide
  exact ⟨started, fun unmarked => marked (unmarked.returns marker escaped), by decide⟩

end Flow

end PhpAudit
