/-
This file defines hushed walks, and proves for each step of a walk that it does not look at the
report: taken from a hushed walk, it comes to the same state as a step that is hushed afterwards.

The only step that asks whether issues are reported is the check of array access, and it asks only
in order to save work. Steps that are taken silently, as for the bodies of cases that are walked
again for a fall-through, turn the report off and give it back as it was.
-/

import PhpAudit.Flow.Body

namespace PhpAudit

/-! ### Hushed states -/

/-- The walk with a report that drops what it is given, and has nothing yet. -/
def Walk.hush (walk : Walk) : Walk :=
  { walk with report := { enabled := false } }

def Guard.hush (guard : Guard) : Guard :=
  { guard with walk := guard.walk.hush }

def Split.hush (split : Split) : Split :=
  { split with walk := split.walk.hush }

def Flow.Chain.hush (chain : Chain) : Chain :=
  { chain with walk := chain.walk.hush }

def Flow.Cases.hush (cases : Cases) : Cases :=
  { cases with walk := cases.walk.hush }

def Flow.Catches.hush (catches : Catches) : Catches :=
  { catches with walk := catches.walk.hush }

/-! ### Steps of a walk -/

namespace Walk

variable (env : Env) (walk : Walk)

/-- From a hushed walk, the quiet steps come to what the others come to, hushed. -/
def Mirrors (quiet steps : Walk → Walk) : Prop :=
  ∀ walk, quiet walk.hush = (steps walk).hush

/-- Steps that do not look at the report. -/
def Deaf (steps : Walk → Walk) : Prop :=
  Mirrors steps steps

theorem Mirrors.foldl {Item : Type} {quiet step : Walk → Item → Walk} (items : List Item)
    (mirrors : ∀ item ∈ items, Mirrors (quiet · item) (step · item)) :
    Mirrors (items.foldl quiet) (items.foldl step) := by
  intro walk
  induction items generalizing walk with
  | nil => rfl
  | cons item rest inductionHypothesis =>
    have first : quiet walk.hush item = (step walk item).hush := mirrors item List.mem_cons_self walk
    have others := inductionHypothesis (fun item member => mirrors item (List.mem_cons_of_mem _ member))
      (step walk item)
    dsimp only [List.foldl_cons] at others ⊢
    rw [first, others]

theorem Deaf.foldl {Item : Type} {step : Walk → Item → Walk}
    (deaf : ∀ item, Deaf (step · item)) (items : List Item) : Deaf (items.foldl step) :=
  Mirrors.foldl items fun item _ => deaf item

/-- What else a walk knows is kept where it is hushed. -/
@[simp]
theorem scope_hush : walk.hush.scope = walk.scope := rfl

@[simp]
theorem block_hush : walk.hush.block = walk.block := rfl

theorem report_hush : walk.hush.report = { enabled := false } := rfl

@[simp]
theorem hush_issue (span : Span) (severity : Severity) (check message : String) :
    (walk.issue env span severity check message).hush = walk.hush := rfl

@[simp]
theorem mapScope_hush (change : Scope → Scope) :
    walk.hush.mapScope change = (walk.mapScope change).hush := rfl

@[simp]
theorem mapBlock_hush (change : Block → Block) :
    walk.hush.mapBlock change = (walk.mapBlock change).hush := rfl

@[simp]
theorem leave_hush (exits : Exits) : walk.hush.leave exits = (walk.leave exits).hush := rfl

@[simp]
theorem impure_hush : walk.hush.impure = walk.impure.hush := rfl

@[simp]
theorem untrack_hush (name : String) :
    walk.hush.untrack env name = (walk.untrack env name).hush := rfl

@[simp]
theorem share_hush (name : String) : walk.hush.share name = (walk.share name).hush := rfl

@[simp]
theorem localType_hush (expr : Expr) : walk.hush.localType env expr = walk.localType env expr := rfl

@[simp]
theorem track_hush (name : String) (span : Span) :
    walk.hush.track env name span = (walk.track env name span).hush := by
  simp only [track, apply_ite hush]
  rfl

@[simp]
theorem checkDiscard_hush (name : String) (span : Span) :
    walk.hush.checkDiscard env name span = (walk.checkDiscard env name span).hush := by
  simp only [checkDiscard, apply_ite hush]
  rfl

@[simp]
theorem readMissing_hush (name : String) (span : Span) :
    walk.hush.readMissing env name span = (walk.readMissing env name span).hush := by
  unfold readMissing
  rw [scope_hush]
  cases walk.scope.mayHave name || env.enclosing.any (·.mayHave name) <;> rfl

@[simp]
theorem read_hush (name : String) (span : Span) :
    walk.hush.read env name span = (walk.read env name span).hush := by
  unfold read
  simp only [checkDiscard_hush, untrack_hush, scope_hush]
  generalize (walk.checkDiscard env name span).untrack env name = noted
  rw [apply_ite hush]
  refine ite_congr rfl (fun _ => rfl) fun _ => ?_
  split
  · rfl
  · exact readMissing_hush env noted name span

@[simp]
theorem readAll_hush (names : List String) (span : Span) :
    walk.hush.readAll env names span = (walk.readAll env names span).hush :=
  Deaf.foldl (fun name walk => read_hush env walk name span) names walk

@[simp]
theorem leaveByCallee_hush (exits : Exits) :
    walk.hush.leaveByCallee env exits = (walk.leaveByCallee env exits).hush := by
  simp only [leaveByCallee, apply_ite hush]
  rfl

/-- A walk that reports nothing does not check access, so it asks no index about it. -/
theorem checkArrayAccess_hush (other : Env) (base : Expr) (span : Span) :
    walk.hush.checkArrayAccess other base span = (walk.checkArrayAccess env base span).hush := by
  have silent : walk.hush.checkArrayAccess other base span = walk.hush := by
    unfold checkArrayAccess
    simp [report_hush]
  rw [silent]
  simp only [checkArrayAccess, apply_ite hush, hush_issue, ite_self]

@[simp]
theorem checkDeadCode_hush (stmt : Stmt) :
    walk.hush.checkDeadCode env stmt = (walk.checkDeadCode env stmt).hush := by
  unfold checkDeadCode
  extract_lets exempt
  rw [apply_ite hush]
  rfl

@[simp]
theorem dropMarkers_hush (markers : List String) :
    walk.hush.dropMarkers markers = (walk.dropMarkers markers).hush := by
  refine Deaf.foldl (fun name walk => ?_) markers walk
  simp only [scope_hush]
  split <;> rfl

@[simp]
theorem flushUnused_hush : walk.hush.flushUnused env = (walk.flushUnused env).hush := by
  have reported : Deaf fun walk => if walk.toleratesUnused then walk else
      (walk.pendingWrites env).foldl (fun walk write =>
        walk.issue env write.1 .warning "unused"
          s!"Variable {write.2} is unused (use $_ to ignore this inspection)") walk := by
    intro walk
    dsimp only
    rw [apply_ite hush]
    exact ite_congr rfl (fun _ => rfl) fun _ =>
      Deaf.foldl (fun _ _ => rfl) (walk.pendingWrites env) walk
  exact congrArg (fun walk : Walk => { walk with unread := {} }) (reported walk)

variable {walk} {quiet steps : Walk → Walk} (mirrors : Mirrors quiet steps)

include mirrors

theorem conditionally_hush :
    walk.hush.conditionally quiet = (walk.conditionally steps).hush := by
  unfold conditionally
  rw [mirrors, mapBlock_hush, block_hush]

theorem silently_hush : walk.hush.silently quiet = (walk.silently steps).hush := by
  let silent : Walk := { walk with report := { walk.report with enabled := false } }
  have same : quiet silent.hush = (steps silent).hush := mirrors silent
  have equal : quiet walk.hush = (steps silent).hush := same
  show { quiet walk.hush with report := { (quiet walk.hush).report with enabled := false } } = _
  rw [equal]
  rfl

theorem within_hush (block : Block) :
    walk.hush.within block quiet =
      ((walk.within block steps).1, (walk.within block steps).2.hush) := by
  have same : quiet { walk.hush with block } = (steps { walk with block }).hush :=
    mirrors { walk with block }
  unfold within
  rw [same]
  rfl

end Walk

/-! ### Conditions -/

namespace Guard

variable (guard : Guard)

@[simp]
theorem start_hush (walk : Walk) (markers : List String) :
    start walk.hush markers = (start walk markers).hush := rfl

theorem mapWalk_hush {quiet steps : Walk → Walk} (mirrors : Walk.Mirrors quiet steps) :
    guard.hush.mapWalk quiet = (guard.mapWalk steps).hush := by
  unfold mapWalk hush
  rw [mirrors]

theorem conditionally_hush {quiet steps : Guard → Guard} (mirrors : ∀ guard : Guard,
    quiet guard.hush = (steps guard).hush) :
    guard.hush.conditionally quiet = (guard.conditionally steps).hush := by
  unfold conditionally
  rw [mirrors]
  rfl

@[simp]
theorem mark_hush (guarded : Expr) : guard.hush.mark guarded = (guard.mark guarded).hush := by
  unfold mark
  split
  · rfl
  · rw [apply_ite hush]
    rfl

@[simp]
theorem markNotEmpty_hush (negated : Bool) (operand : Expr) :
    guard.hush.markNotEmpty negated operand = (guard.markNotEmpty negated operand).hush := by
  unfold markNotEmpty
  split
  · split
    · rfl
    · exact mark_hush guard _
  · rfl

@[simp]
theorem markIsset_hush (negated : Bool) (values : List Expr) :
    guard.hush.markIsset negated values = (guard.markIsset negated values).hush := by
  unfold markIsset
  split
  · rfl
  · induction values generalizing guard with
    | nil => rfl
    | cons value rest inductionHypothesis =>
      rw [List.foldl_cons, List.foldl_cons, mark_hush, inductionHypothesis]

@[simp]
theorem narrow_hush (name tested : String) (negated inLogic : Bool) :
    guard.hush.narrow name tested negated inLogic =
      (guard.narrow name tested negated inLogic).hush := by
  simp only [narrow, apply_ite hush]
  rfl

@[simp]
theorem narrowTo_hush (naming : Naming) (subject : Expr) (ref : ClassRef)
    (negated inLogic : Bool) :
    guard.hush.narrowTo naming subject ref negated inLogic =
      (guard.narrowTo naming subject ref negated inLogic).hush := by
  unfold narrowTo
  split
  · exact narrow_hush guard _ _ negated inLogic
  · rfl

@[simp]
theorem split_hush (block : Block) : guard.hush.split block = (guard.split block).hush := rfl

end Guard

/-! ### Uses of variables, closures and branches -/

namespace Flow

variable (env : Env) (walk : Walk)

@[simp]
theorem assignVar_hush (mode : AssignMode) (types : TypeSet) (name : String) (span : Span) :
    assignVar env mode types name span walk.hush = (assignVar env mode types name span walk).hush := by
  cases mode <;> simp [assignVar]

@[simp]
theorem storeInVar_hush (types : TypeSet) (name : String) (span : Span) :
    storeInVar env types name span walk.hush = (storeInVar env types name span walk).hush := by
  simp only [storeInVar, apply_ite Walk.hush, Walk.scope_hush, Walk.mapScope_hush,
    Walk.untrack_hush, Walk.read_hush]

@[simp]
theorem shareVar_hush (name : String) :
    shareVar env name walk.hush = (shareVar env name walk).hush := by
  unfold shareVar
  rw [Walk.scope_hush]
  cases walk.scope.has name <;> rfl

@[simp]
theorem assignOwnProperty_hush (types : TypeSet) (object : Expr) (name : Option String) :
    assignOwnProperty env types object name walk.hush =
      (assignOwnProperty env types object name walk).hush := by
  unfold assignOwnProperty
  split
  · split <;> rfl
  · rfl

@[simp]
theorem assignOwnStatic_hush (types : TypeSet) (ref : ClassRef) (name : Option String) :
    assignOwnStatic env types ref name walk.hush =
      (assignOwnStatic env types ref name walk).hush := by
  unfold assignOwnStatic
  split
  · split <;> rfl
  · rfl

@[simp]
theorem shareSlot_hush (byRef : Bool) (value : Expr) :
    shareSlot byRef value walk.hush = (shareSlot byRef value walk).hush := by
  unfold shareSlot
  split <;> rfl

@[simp]
theorem tolerate_hush (function : String) :
    tolerate function walk.hush = (tolerate function walk).hush := by
  unfold tolerate
  split <;> rfl

theorem capture_hush (captured : Capture) (scope : Scope) :
    capture env (walk.hush, scope) captured =
      ((capture env (walk, scope) captured).1.hush, (capture env (walk, scope) captured).2) := by
  unfold capture
  dsimp only
  rw [Walk.scope_hush]
  by_cases known : (captured.byRef || walk.scope.has captured.name) = true
  · rw [if_pos known, if_pos known]
    cases captured.byRef <;> rfl
  · rw [if_neg known, if_neg known]
    cases captured.byRef <;> rfl

theorem captures_hush (captures : List Capture) (scope : Scope) :
    captures.foldl (capture env) (walk.hush, scope) =
      ((captures.foldl (capture env) (walk, scope)).1.hush,
        (captures.foldl (capture env) (walk, scope)).2) := by
  induction captures generalizing walk scope with
  | nil => rfl
  | cons captured rest inductionHypothesis =>
    rw [List.foldl_cons, List.foldl_cons, capture_hush, inductionHypothesis]

theorem startBody_hush (scope : Scope) (params : List ParamInfo) (report : Report) :
    startBody scope params { enabled := false } = (startBody scope params report).hush := by
  have shared (params : List ParamInfo) :
      Walk.Deaf (params.foldl fun walk param => walk.share param.name) :=
    .foldl (fun _ _ => rfl) params
  exact shared (params.filter (·.byRef)) (.start scope report)

theorem startClosure_hush (scope : Scope) (params : List ParamInfo) (captures : List Capture)
    (report : Report) :
    startClosure env scope params captures { enabled := false } =
      (startClosure env scope params captures report).hush := by
  unfold startClosure
  rw [startBody_hush scope params report]
  refine Walk.Deaf.foldl (fun captured walk => ?_) captures _
  dsimp only
  split
  · rfl
  · exact Walk.track_hush env walk _ _

@[simp]
theorem Chain.close_hush (chain : Chain) (continuesInFalse : Bool) :
    chain.hush.close continuesInFalse = (chain.close continuesInFalse).hush := by
  cases continuesInFalse with
  | false =>
    exact Walk.dropMarkers_hush (chain.walk.mapBlock fun block =>
      (block.propagate chain.branches chain.links).merge chain.branches chain.links) chain.markers
  | true =>
    exact Walk.dropMarkers_hush (chain.continueInFalse.mapBlock fun block =>
      (block.propagate chain.branches chain.links).merge chain.branches chain.links) chain.markers

@[simp]
theorem closeTernary_hush (initial : Scope) (yes no : Block) (markers : List String) :
    closeTernary initial yes no markers walk.hush =
      (closeTernary initial yes no markers walk).hush := by
  unfold closeTernary
  extract_lets settle
  exact Walk.dropMarkers_hush (walk.mapBlock (·.merge [settle yes, settle no] 2)) markers

@[simp]
theorem Cases.close_hush (cases : Cases) : cases.hush.close = cases.close.hush := rfl

@[simp]
theorem checkCaseBreak_hush (span : Span) (rest : List Case) :
    checkCaseBreak env span rest walk.hush = (checkCaseBreak env span rest walk).hush := by
  unfold checkCaseBreak
  split
  · rw [apply_ite Walk.hush]
    rfl
  · rfl

@[simp]
theorem bindCaught_hush (types : List String) (name : Option String) :
    bindCaught env types name walk.hush = (bindCaught env types name walk).hush := by
  cases name <;> rfl

@[simp]
theorem checkFinally_hush (body : List Stmt) (tried : Block) (catches : List (List Stmt × Block))
    (final : List Stmt) (finalSpan : Span) (finished : Block) :
    checkFinally env body tried catches final finalSpan finished walk.hush =
      (checkFinally env body tried catches final finalSpan finished walk).hush := by
  unfold checkFinally
  split
  · rfl
  · split
    · split
      · exact Walk.Deaf.foldl (fun _ _ => rfl) (overridden body tried catches) walk
      · rfl
    · rfl

@[simp]
theorem closeTry_hush (tried : Block) (catches : Catches) :
    closeTry tried catches.hush = (closeTry tried catches).hush := rfl

@[simp]
theorem checkForeachKey_hush (key : Option Expr) (value : Expr) :
    checkForeachKey env key value walk.hush = (checkForeachKey env key value walk).hush := by
  unfold checkForeachKey
  split
  · rfl
  · split
    · rw [apply_ite Walk.hush]
      rfl
    · rfl

theorem loop_hush {quiet body : Walk → Walk} (mirrors : Walk.Mirrors quiet body) :
    loop quiet walk.hush = (loop body walk).hush := by
  unfold loop
  rw [Walk.block_hush, Walk.within_hush mirrors]
  rfl

end Flow

end PhpAudit
