/-
This file proves that the walk keeps track of defined variables where paths part and meet: in loops,
in the branches of an `if`, and around exceptions.

The walk passes over the code once and joins branches by counting. What has to be kept through the
joins is that the variables which the scope counts as defined have a value in every run that gets
there. A join counts only branches that go on, so a run that comes out of a branch has to come out
of one that was counted; that control goes on there is what the walk records about exits.
-/

import PhpAudit.Proofs.Flow.Gains
import PhpAudit.Proofs.Flow.Leaving

namespace PhpAudit

open Execution

/--
The steps of a walk over statements keep track of the variables that have a value: if they report
none as undefined, the runs read defined variables only, and the scope after the steps holds
variables that every run has given a value by then.
-/
structure Tracks (runs : Runs Leave) (steps : Walk → Walk) : Prop extends Steady steps where
  reads : ∀ {walk : Walk} {known : Set String}, Walk.Passes steps walk → walk.scope.Within known →
    runs.Reads known (steps walk).scope.Within

namespace Tracks

variable {runs first second : Runs Leave} {steps before after : Walk → Walk}

theorem seq (left : Tracks first before) (right : Tracks second after) :
    Tracks (first.seq second) fun walk => after (before walk) where
  toSteady := left.toSteady.comp right.toSteady
  reads passes inside := by
    obtain ⟨passesFirst, passesSecond⟩ := passes.split left.toSteady right.toSteady
    exact (left.reads passesFirst inside).seq fun _ _ insideNext =>
      right.reads passesSecond insideNext

theorem of_gains {names : Set String} {runs : Runs Abort} (gains : Gains names runs steps) :
    Tracks runs.lift steps where
  toSteady := gains.toSteady
  reads passes inside := (gains.reads passes inside).lift.mono fun _ grown gained =>
    gains.within passes (inside.mono grown) gained

theorem of_idle (idle : Idle steps) (reads : ∀ known, runs.Reads known fun _ => True) :
    Tracks runs steps where
  toSteady := .of_idle idle
  reads {walk _} _ inside := (reads _).mono fun _ grown _ => by
    rw [(idle walk).1]
    exact inside.mono grown

theorem congr (tracks : Tracks runs before) (same : ∀ walk, after walk = before walk) :
    Tracks runs after := by
  rwa [funext same]

theorem idle_then (tracks : Tracks runs after) (idle : Idle before) :
    Tracks runs fun walk => after (before walk) := by
  have nothing : Tracks Runs.done before := of_idle idle fun _ => .done trivial
  have both := nothing.seq tracks
  rwa [Runs.done_seq] at both

theorem then_idle (tracks : Tracks runs before) (idle : Idle after) :
    Tracks runs fun walk => after (before walk) := by
  have nothing : Tracks Runs.done after := of_idle idle fun _ => .done trivial
  have both := tracks.seq nothing
  rwa [Runs.seq_done] at both

end Tracks

namespace Flow

/-! ### Loops -/

/-- A branch that may not run is walked in a block of its own. -/
theorem steady_optional {walking : Walk → Walk → Walk} (walked : ∀ outer, Steady (walking outer))
    (start : Block → Block) :
    Steady fun outer => (outer.within (start outer.block) (walking outer)).2.mapBlock
      (·.mergeOptional (outer.within (start outer.block) (walking outer)).1) where
  grows outer := (walked outer).grows { outer with block := start outer.block }
  reporting outer reporting :=
    (walked outer).reporting { outer with block := start outer.block } reporting

/--
A loop. Its test and its step are walked once, before the body, and every round starts with at least
the variables that they needed there.
-/
theorem tracks_loop {test body : Runs Leave} {step : Runs Abort} {testing stepping : Walk → Walk}
    {walking : Walk → Walk → Walk} (tested : Tracks test testing) (stepped : Gains ∅ step stepping)
    (walked : ∀ outer, Tracks body (walking outer)) (start : Block → Block)
    (sameScope : ∀ block, (start block).scope = block.scope) :
    Tracks (Runs.loop test body step.lift) fun walk =>
      let outer := stepping (testing walk)
      (outer.within (start outer.block) (walking outer)).2.mapBlock
        (·.mergeOptional (outer.within (start outer.block) (walking outer)).1) where
  toSteady := (tested.toSteady.comp stepped.toSteady).comp
    (steady_optional (fun outer => (walked outer).toSteady) start)
  reads {walk known} passes inside := by
    obtain ⟨passesBoth, passesBody⟩ := passes.split (tested.toSteady.comp stepped.toSteady)
      (steady_optional (fun outer => (walked outer).toSteady) start)
    obtain ⟨passesTest, passesStep⟩ := passesBoth.split tested.toSteady stepped.toSteady
    have passesInner : Walk.Passes (walking (stepping (testing walk)))
        { stepping (testing walk) with block := start (stepping (testing walk)).block } :=
      passesBody
    -- the scope in which the body starts, and which the loop leaves, is the one after the test
    have settled {later : Set String} (insideTest : (testing walk).scope.Within later) :
        (stepping (testing walk)).scope.Within later :=
      stepped.within passesStep insideTest (Set.empty_subset _)
    refine .loop (fun later grown => tested.reads passesTest (inside.mono grown))
      (fun _ _ grown insideTest => insideTest.mono grown) ?_ ?_ ?_
    · intro later _ insideTest name defined
      exact settled insideTest name (Block.of_has_mergeOptional defined)
    · intro later _ insideTest
      refine ((walked _).reads passesInner ?_).forget
      show (start _).scope.Within later
      rw [sameScope]
      exact settled insideTest
    · intro later _ insideTest
      exact (stepped.reads passesStep insideTest).lift.forget

end Flow

/-! ### Branches of an `if` -/

namespace Flow.Chain

/-- There are at least as many paths as branches that go on. -/
def Counted (chain : Chain) : Prop :=
  (Block.ongoing chain.branches).length ≤ chain.links

/-- Some path is not a branch that goes on. -/
def Slack (chain : Chain) : Prop :=
  (Block.ongoing chain.branches).length < chain.links

/--
The end of the statement was reached with `known` variables: through one of the branches, all of
whose variables are known, or past them.
-/
def Reached (chain : Chain) (known : Set String) : Prop :=
  chain.Slack ∨ ∃ branch ∈ Block.ongoing chain.branches, branch.scope.Within known

/-- Later branches only add to the chain. -/
structure Grows (before after : Chain) : Prop where
  undefined : before.walk.ledger.undefined ≤ after.walk.ledger.undefined
  reporting : before.walk.Reporting → after.walk.Reporting
  counted : before.Counted → after.Counted
  reached : ∀ {known : Set String}, before.Reached known → after.Reached known

theorem Grows.trans {first second third : Chain} (left : Grows first second)
    (right : Grows second third) : Grows first third where
  undefined := Nat.le_trans left.undefined right.undefined
  reporting reporting := right.reporting (left.reporting reporting)
  counted counted := right.counted (left.counted counted)
  reached reached := right.reached (left.reached reached)

theorem branches_push (chain : Chain) (initial : Scope) (branch : Block) (walk : Walk) :
    (chain.push initial branch walk).branches =
      chain.branches ++ [branch.restoreImplicit initial] := rfl

theorem continues_restoreImplicit (branch : Block) (initial : Scope) :
    (branch.restoreImplicit initial).continues = branch.continues := rfl

theorem length_ongoing_push (chain : Chain) (initial : Scope) (branch : Block) (walk : Walk) :
    (Block.ongoing (chain.push initial branch walk).branches).length + chain.links =
      (Block.ongoing chain.branches).length + (chain.push initial branch walk).links := by
  rw [branches_push, Block.ongoing_append, List.length_append, Block.length_ongoing_singleton,
    continues_restoreImplicit, links_push]
  split <;> omega

/-- A branch that goes on is one more path and one more branch. -/
theorem grows_push {chain : Chain} (initial : Scope) (branch : Block) {walk : Walk}
    (undefined : chain.walk.ledger.undefined ≤ walk.ledger.undefined)
    (reporting : chain.walk.Reporting → walk.Reporting) :
    Grows chain (chain.push initial branch walk) := by
  have lengths := length_ongoing_push chain initial branch walk
  refine ⟨undefined, reporting, ?_, ?_⟩
  · unfold Counted
    omega
  · rintro known (slack | ⟨covered, member, inside⟩)
    · left
      unfold Slack at *
      omega
    · refine .inr ⟨covered, ?_, inside⟩
      rw [branches_push, Block.ongoing_append]
      exact List.mem_append_left _ member

/-- Further branches, which stand for `runs`, are walked where every test so far is false. -/
structure Tracks (initial : Scope) (runs : Runs Leave) (before after : Chain) : Prop
    extends Grows before after where
  block : after.walk.block = before.walk.block
  reads : before.walk.Reporting →
    after.walk.ledger.undefined = before.walk.ledger.undefined → before.Counted →
    ∀ {known : Set String}, initial.Within known → before.no.scope.Within known →
      runs.Reads known after.Reached

/-- What the joined branches define has a value at the end of the statement. -/
theorem within_close {chain : Chain} {known : Set String} (counted : chain.Counted)
    (reached : chain.Reached known) (inside : chain.walk.scope.Within known) :
    (chain.close false).scope.Within known := by
  intro name defined
  have joined : (chain.walk.block.propagate chain.branches chain.links |>.merge chain.branches
      chain.links).scope.has name = true := Walk.of_has_dropMarkers defined
  rcases Block.of_has_merge_of_le counted joined with before | ⟨all, defined⟩
  · exact inside name before
  · rcases reached with slack | ⟨branch, member, insideBranch⟩
    · unfold Slack at slack
      omega
    · exact insideBranch name (defined branch member)

end Flow.Chain

namespace Flow

variable {env : Env}

/-- A branch that is walked with its body adds to the chain. -/
theorem grows_pushBranch {body : List Stmt} (steady : Steady (walkStmts env body))
    (initial : Scope) (split : Split) {walk : Walk} {chain : Chain}
    (undefined : chain.walk.ledger.undefined ≤ walk.ledger.undefined)
    (reporting : chain.walk.Reporting → walk.Reporting) :
    chain.Grows (chain.pushBranch env initial body split walk) := by
  have stepBody := steady.grows { walk with block := split.yes }
  have reportingBody := steady.reporting { walk with block := split.yes }
  let ended := walk.within split.yes (walkStmts env body)
  let tested : Chain := { chain with markers := split.markers, no := split.no }
  have pushed : tested.Grows (tested.push initial ended.1 ended.2) :=
    Chain.grows_push initial ended.1 (Nat.le_trans undefined stepBody) fun before =>
      reportingBody (reporting before)
  exact ⟨pushed.undefined, pushed.reporting, pushed.counted, pushed.reached⟩

/-- A run through the body of a branch comes out of the branch that is added to the chain. -/
theorem reads_body {body : List Stmt} (tracks : Tracks (execute env body) (walkStmts env body))
    (follows : Follows (execute env body) (walkStmts env body)) (initial : Scope) (split : Split)
    {walk : Walk} (chain : Chain) (live : split.yes.continues = true)
    (passes : Walk.Passes (walkStmts env body) { walk with block := split.yes })
    {known : Set String} (insideInitial : initial.Within known)
    (inside : split.yes.scope.Within known) :
    (execute env body).Reads known (chain.pushBranch env initial body split walk).Reached := by
  refine (tracks.reads passes inside).completes.mono fun later grown reached => ?_
  obtain ⟨completes, insideBranch⟩ := reached
  have continues : (walk.within split.yes (walkStmts env body)).1.continues = true :=
    follows.live completes (walk.live_withBlock live)
  refine .inr ⟨_, Block.mem_ongoing (List.mem_append_right _ (List.mem_singleton_self _))
    continues, fun name defined => ?_⟩
  rcases Block.of_has_restoreImplicit defined with defined | before
  · exact insideBranch name defined
  · exact insideInitial.mono grown name before

/-- A condition that stands in the block of `walk`. -/
def splitOn (env : Env) (test : Expr) (markers : List String) (walk : Walk) : Split :=
  (walkTest env false false test (.start walk markers)).split walk.block

theorem splitOn_eq {test : Expr} (plain : everyExpr (definesPlainly env) test = true)
    (markers : List String) (walk : Walk) :
    splitOn env test markers walk =
      ((Guard.start walk markers).mapWalk (walkExpr env test)).split walk.block := by
  unfold splitOn
  rw [walkTest_eq false false test plain]

section

variable {test : Expr} {body : List Stmt} {names : Set String}
  (plain : everyExpr (definesPlainly env) test = true)
  (gains : Gains names (evaluate env test) (walkExpr env test))
  (tracks : Tracks (execute env body) (walkStmts env body))

include plain gains

theorem steady_splitOn (markers : List String) :
    Steady fun walk => (splitOn env test markers walk).walk where
  grows walk := by
    rw [splitOn_eq plain]
    exact gains.grows { walk with block := walk.block.child }
  reporting walk reporting := by
    rw [splitOn_eq plain]
    exact gains.reporting { walk with block := walk.block.child } reporting

include tracks

/--
A branch with its test. After the test, the block around it and the false outcome hold known
variables only; and a run through the body comes out of the branch that is added to the chain.
-/
theorem reads_pushBranch (followed : everyExpr (pacesExits env) test = true)
    (follows : Follows (execute env body) (walkStmts env body)) (initial : Scope)
    (markers : List String) (outer : Block) (chain : Chain) (walk : Walk) {known : Set String} :
    let split := splitOn env test markers walk
    let pushed := chain.pushBranch env initial body split { split.walk with block := outer }
    walk.Reporting → pushed.walk.ledger.undefined = walk.ledger.undefined →
      initial.Within known → walk.scope.Within known →
      (evaluate env test).lift.Reads known fun later =>
        split.walk.scope.Within later ∧ pushed.no.scope.Within later ∧
          (execute env body).Reads later pushed.Reached := by
  intro split pushed reporting equal insideInitial inside
  have stepTest := (steady_splitOn plain gains markers).grows walk
  have reportingSplit := (steady_splitOn plain gains markers).reporting walk reporting
  have stepBody := tracks.grows { split.walk with block := split.yes }
  have passesTest : Walk.Passes (walkExpr env test) { walk with block := walk.block.child } := by
    refine ⟨reporting, ?_⟩
    have same : split.walk.ledger.undefined = walk.ledger.undefined :=
      Nat.le_antisymm (stepBody.trans_eq equal) stepTest
    rw [show split = _ from splitOn_eq plain markers walk] at same
    exact same
  have passesBody : Walk.Passes (walkStmts env body) { split.walk with block := split.yes } :=
    ⟨reportingSplit, Nat.le_antisymm (Nat.le_trans (Nat.le_of_eq equal) stepTest) stepBody⟩
  have gained := of_has_split gains markers passesTest
  rw [← splitOn_eq plain] at gained
  refine (gains.reads passesTest inside).completes.lift.mono fun later grown reached => ?_
  obtain ⟨completes, written⟩ := reached
  refine ⟨?_, ?_, ?_⟩
  · exact fun name defined => ((gained name).2.2 defined).elim (inside.mono grown name) (written ·)
  · exact fun name defined => ((gained name).2.1 defined).elim (inside.mono grown name) (written ·)
  · have insideYes : split.yes.scope.Within later := fun name defined =>
      ((gained name).1 defined).elim (inside.mono grown name) (written ·)
    exact reads_body tracks follows initial split chain
      (continues_yes env followed walk markers walk.block (Runs.endsIn_lift_none.mpr completes))
      passesBody (insideInitial.mono grown) insideYes

theorem tracks_orIf {rest : Otherwise} (span : Span)
    (followed : everyExpr (pacesExits env) test = true)
    (follows : Follows (execute env body) (walkStmts env body)) (initial : Scope)
    (others : ∀ chain : Chain, chain.no.continues = true →
      Chain.Tracks initial (executeOtherwise env rest) chain (walkOtherwise env initial rest chain))
    (chain : Chain) :
    Chain.Tracks initial (executeOtherwise env (.orIf test body span rest)) chain
      (walkOtherwise env initial (.orIf test body span rest) chain) := by
  let inner : Walk := { chain.walk with block := chain.no }
  let split := splitOn env test chain.markers inner
  let pushed := chain.pushBranch env initial body split
    { split.walk with block := chain.walk.block }
  have tested := steady_splitOn plain gains chain.markers
  have grows : chain.Grows pushed :=
    grows_pushBranch tracks.toSteady initial split (tested.grows inner) (tested.reporting inner)
  have rest := others pushed (continues_no env test inner chain.markers chain.no)
  rw [executeOtherwise, walkOtherwise]
  refine { toGrows := grows.trans rest.toGrows, block := rest.block, reads := ?_ }
  intro reporting equal counted known insideInitial insideNo
  have first := grows.undefined
  have second := rest.undefined
  have equalRest : (walkOtherwise env initial _ pushed).walk.ledger.undefined =
      pushed.walk.ledger.undefined :=
    Nat.le_antisymm (Nat.le_trans (Nat.le_of_eq equal) first) second
  have equalFirst : pushed.walk.ledger.undefined = inner.ledger.undefined :=
    Nat.le_antisymm (Nat.le_trans second (Nat.le_of_eq equal)) first
  refine (reads_pushBranch plain gains tracks followed follows initial chain.markers
    chain.walk.block chain inner reporting equalFirst insideInitial insideNo).seq
      fun later grown split => ?_
  obtain ⟨_, insideFalse, bodyReads⟩ := split
  refine .union ?_ ?_
  · exact bodyReads.mono fun _ _ reached => rest.reached reached
  · exact rest.reads (grows.reporting reporting) equalRest (grows.counted counted)
      (insideInitial.mono grown) insideFalse

theorem tracks_branch {rest : Otherwise} (bodySpan span : Span)
    (followed : everyExpr (pacesExits env) test = true)
    (follows : Follows (execute env body) (walkStmts env body))
    (others : ∀ (initial : Scope) (chain : Chain), chain.no.continues = true →
      Chain.Tracks initial (executeOtherwise env rest) chain
        (walkOtherwise env initial rest chain)) :
    Tracks (executeKind env span (.branch test body bodySpan rest))
      (walkStmtKind env (.branch test body bodySpan rest)) := by
  -- the chain before the statement is joined, and its relation to the walk before the test
  let pushed (walk : Walk) : Chain :=
    (Chain.start (splitOn env test [] walk)).pushBranch env walk.scope body
      (splitOn env test [] walk) (splitOn env test [] walk).walk
  let chain (walk : Walk) : Chain := walkOtherwise env walk.scope rest (pushed walk)
  have closed (walk : Walk) :
      walkStmtKind env (.branch test body bodySpan rest) walk = (chain walk).close false := by
    obtain ⟨flag, narrows, -, equal⟩ := walkStmtKind_branch env test body bodySpan rest walk
    rw [equal, narrows (isNarrowing_eq_false test plain)]
    rfl
  have tested := steady_splitOn plain gains []
  have grows (walk : Walk) : (Chain.start (splitOn env test [] walk)).Grows (pushed walk) :=
    grows_pushBranch tracks.toSteady walk.scope _ (Nat.le_refl _) id
  have further (walk : Walk) := others walk.scope (pushed walk)
    (continues_no env test walk [] walk.block)
  have ledger (walk : Walk) : ((chain walk).close false).ledger = (chain walk).walk.ledger :=
    Walk.ledger_dropMarkers _ _
  refine { grows := fun walk => ?_, reporting := fun walk reporting => ?_, reads := ?_ }
  · rw [closed, ledger]
    exact Nat.le_trans (tested.grows walk)
      (Nat.le_trans (grows walk).undefined (further walk).undefined)
  · rw [closed]
    unfold Walk.Reporting
    rw [ledger]
    exact (further walk).reporting ((grows walk).reporting (tested.reporting walk reporting))
  · intro walk known passes inside
    obtain ⟨reporting, equal⟩ := passes
    rw [closed, ledger] at equal
    rw [closed, executeKind]
    have first := (tested.grows walk).trans (grows walk).undefined
    have second := (further walk).undefined
    have equalFirst : (pushed walk).walk.ledger.undefined = walk.ledger.undefined :=
      Nat.le_antisymm (second.trans_eq equal) first
    have counted : (pushed walk).Counted := (grows walk).counted (Nat.le_refl 0)
    refine (reads_pushBranch plain gains tracks followed follows walk.scope [] _ _ walk reporting
      equalFirst inside inside).seq fun later grown ⟨insideOuter, insideFalse, bodyReads⟩ => ?_
    have settled {known : Set String} (grownKnown : later ⊆ known)
        (reached : (chain walk).Reached known) : ((chain walk).close false).scope.Within known := by
      refine Chain.within_close ((further walk).counted counted) reached ?_
      unfold Walk.scope
      rw [(further walk).block]
      exact insideOuter.mono grownKnown
    refine .union ?_ ?_
    · exact bodyReads.mono fun _ grownKnown reached =>
        settled grownKnown ((further walk).reached reached)
    · exact ((further walk).reads
        ((grows walk).reporting (tested.reporting walk reporting)) (equal.trans equalFirst.symm)
        counted (inside.mono grown) insideFalse).mono fun _ grownKnown reached =>
          settled grownKnown reached

end

theorem tracks_orElse {body : List Stmt} (tracks : Tracks (execute env body) (walkStmts env body))
    (follows : Follows (execute env body) (walkStmts env body)) (initial : Scope) (chain : Chain)
    (no : chain.no.continues = true) :
    Chain.Tracks initial (executeOtherwise env (.orElse body)) chain
      (walkOtherwise env initial (.orElse body) chain) := by
  let split : Split := ⟨chain.walk, chain.no, chain.no, chain.markers⟩
  have grows : chain.Grows (chain.pushBranch env initial body split chain.walk) :=
    grows_pushBranch tracks.toSteady initial split (Nat.le_refl _) id
  rw [executeOtherwise, walkOtherwise]
  refine { toGrows := grows, block := rfl, reads := ?_ }
  intro reporting equal counted known insideInitial insideNo
  exact reads_body tracks follows initial split chain no ⟨reporting, equal⟩ insideInitial insideNo

theorem tracks_nothing (initial : Scope) (chain : Chain) :
    Chain.Tracks initial (executeOtherwise env .nothing) chain
      (walkOtherwise env initial .nothing chain) := by
  rw [executeOtherwise, walkOtherwise]
  refine {
    undefined := Nat.le_refl _
    reporting := id
    counted := fun counted => Nat.le_succ_of_le counted
    reached := ?_
    block := rfl
    reads := fun _ _ counted _ _ _ => .done (.inl (Nat.lt_succ_of_le counted)) }
  rintro known (slack | reached)
  · exact .inl (Nat.lt_succ_of_lt slack)
  · exact .inr reached

/-! ### Exceptions -/

/-- Some branch that goes on was left with `known` variables. -/
def LeftWith (branches : List Block) (known : Set String) : Prop :=
  ∃ branch ∈ Block.ongoing branches, branch.scope.Within known

theorem LeftWith.mono {branches : List Block} {known later : Set String}
    (left : LeftWith branches known) (grown : known ⊆ later) : LeftWith branches later := by
  obtain ⟨branch, member, inside⟩ := left
  exact ⟨branch, member, inside.mono grown⟩

theorem LeftWith.subset {branches more : List Block} {known : Set String}
    (left : LeftWith branches known) (subset : branches ⊆ more) : LeftWith more known := by
  obtain ⟨branch, member, inside⟩ := left
  obtain ⟨member, continues⟩ := List.mem_filter.mp member
  exact ⟨branch, Block.mem_ongoing (subset member) continues, inside⟩

/-- Clauses, which stand for `runs`, are walked from the state in which an exception was thrown. -/
structure Catches.Tracks (thrown : Block) (runs : Runs Leave) (before after : Catches) : Prop where
  undefined : before.walk.ledger.undefined ≤ after.walk.ledger.undefined
  reporting : before.walk.Reporting → after.walk.Reporting
  block : after.walk.block = before.walk.block
  branches : before.branches ⊆ after.branches
  counted : (Block.ongoing after.branches).length + before.links =
    (Block.ongoing before.branches).length + after.links
  reads : before.walk.Reporting →
    after.walk.ledger.undefined = before.walk.ledger.undefined →
    ∀ {known : Set String}, thrown.scope.Within known → runs.Reads known (LeftWith after.branches)

/-- A clause that goes on is one more path and one more branch. -/
theorem Catches.length_ongoing_push (catches : Catches) (branch : Block) (walk : Walk) :
    (Block.ongoing (catches.push branch walk).branches).length + catches.links =
      (Block.ongoing catches.branches).length + (catches.push branch walk).links := by
  show (Block.ongoing (catches.branches ++ [branch])).length + _ =
    _ + if branch.continues then catches.links + 1 else catches.links
  rw [Block.ongoing_append, List.length_append, Block.length_ongoing_singleton]
  split <;> omega

theorem tracks_bindCaught (env : Env) (types : List String) (name : Option String) (span : Span) :
    Tracks (bindException span name) (bindCaught env types name) := by
  cases name with
  | none => exact .of_idle (fun _ => ⟨rfl, rfl⟩) fun _ => .done trivial
  | some name =>
    refine { toSteady := .of_ledger fun _ => rfl, reads := fun {walk known} _ inside => ?_ }
    refine .write name span fun other defined => ?_
    rcases Scope.of_has_assign _ _ _ defined with equal | defined
    · exact .inr equal.symm
    · exact .inl (inside other defined)

theorem tracks_catch {body : List Stmt} {rest : List Catch} (types : List String)
    (name : Option String) (span : Span)
    (tracks : Tracks (execute env body) (walkStmts env body))
    (follows : Follows (execute env body) (walkStmts env body)) (thrown : Block)
    (others : ∀ catches : Catches, Catches.Tracks thrown (executeCatches env rest) catches
      (walkCatches env thrown rest catches)) (catches : Catches) :
    Catches.Tracks thrown (executeCatches env (⟨types, name, body, span⟩ :: rest)) catches
      (walkCatches env thrown (⟨types, name, body, span⟩ :: rest) catches) := by
  have bound := (tracks_bindCaught env types name span).seq tracks
  have boundFollows := Follows.seq (Follows.of_record (record_bindCaught env types name)
    (endsIn_bindException span name _)) follows
  let steps (walk : Walk) : Walk := walkStmts env body (bindCaught env types name walk)
  let clause := catches.walk.within thrown.child steps
  let pushed := catches.push clause.1 clause.2
  have further := others pushed
  have stepClause := bound.grows { catches.walk with block := thrown.child }
  have reportingClause := bound.reporting { catches.walk with block := thrown.child }
  rw [executeCatches, walkCatches]
  refine {
    undefined := Nat.le_trans stepClause further.undefined
    reporting := fun reporting => further.reporting (reportingClause reporting)
    block := further.block
    branches := List.Subset.trans (List.subset_append_left _ _) further.branches
    counted := ?_
    reads := ?_ }
  · have lengths : (Block.ongoing pushed.branches).length + catches.links =
        (Block.ongoing catches.branches).length + pushed.links :=
      catches.length_ongoing_push clause.1 clause.2
    have counted := further.counted
    show (Block.ongoing (walkCatches env thrown rest pushed).branches).length + _ =
      _ + (walkCatches env thrown rest pushed).links
    omega
  · intro reporting equal known inside
    have passes : Walk.Passes steps { catches.walk with block := thrown.child } :=
      ⟨reporting, Nat.le_antisymm (further.undefined.trans_eq equal) stepClause⟩
    refine .union ?_ ?_
    · refine (bound.reads passes inside).completes.mono fun later _ reached => ?_
      obtain ⟨completes, insideClause⟩ := reached
      have continues : clause.1.continues = true := boundFollows.live completes rfl
      have left : LeftWith pushed.branches later := ⟨clause.1, Block.mem_ongoing
        (List.mem_append_right _ (List.mem_singleton_self _)) continues, insideClause⟩
      exact left.subset further.branches
    · exact further.reads (reportingClause reporting)
        (Nat.le_antisymm (equal.trans_le stepClause) further.undefined) inside

/-- Whatever a body defined before it threw may be undefined. -/
theorem of_has_afterThrow {block body : Block} {name : String}
    (defined : (afterThrow block body).scope.has name = true) : block.scope.has name = true := by
  have added (step : Block → String × VarInfo → Block)
      (kept : ∀ after entry, (step after entry).scope.has name = after.scope.has name)
      (entries : List (String × VarInfo)) (after : Block) :
      (entries.foldl step after).scope.has name = after.scope.has name := by
    induction entries generalizing after with
    | nil => rfl
    | cons entry rest inductionHypothesis => rw [List.foldl_cons, inductionHypothesis, kept]
  refine (added _ (fun after entry => ?_) body.scope.entries block.child).symm.trans defined
  simp [Block.mapScope, Scope.has_add]

theorem within_closeTry {tried : Block} {catches : Catches} {known : Set String}
    (counted : (Block.ongoing catches.branches).length = catches.links)
    (left : LeftWith (catches.branches ++ [tried]) known)
    (inside : catches.walk.scope.Within known) : (closeTry tried catches).scope.Within known := by
  intro name defined
  have lengths : (Block.ongoing (catches.branches ++ [tried])).length =
      if tried.continues then catches.links + 1 else catches.links := by
    rw [Block.ongoing_append, List.length_append, Block.length_ongoing_singleton, counted]
    split <;> rfl
  rcases Block.of_has_merge_of_le (Nat.le_of_eq lengths) defined with before | ⟨_, defined⟩
  · exact inside name before
  · obtain ⟨branch, member, insideBranch⟩ := left
    exact insideBranch name (defined branch member)

theorem within_closeFinally {finished : Block} {walk : Walk} {known : Set String}
    (inside : walk.scope.Within known) (insideLast : finished.scope.Within known) :
    (closeFinally finished walk).scope.Within known := by
  intro name defined
  refine (Scope.of_has_foldl (finished.scope.has name = true) (fun scope item member defined => ?_)
    defined).elim (inside name) (insideLast name)
  obtain ⟨other, info⟩ := item
  rw [Scope.has_add, Bool.or_eq_true] at defined
  refine defined.imp_right fun added => ?_
  simp only [Bool.and_eq_true, beq_iff_eq] at added
  obtain ⟨rfl, _, always⟩ := added
  exact (Scope.has_eq_true _ _).mpr ⟨info, (Scope.mem_entries _ _).mp member, always⟩

section

variable {body : List Stmt} {catches : List Catch}
  (tracks : Tracks (execute env body) (walkStmts env body))
  (follows : Follows (execute env body) (walkStmts env body))
  (clauses : ∀ (thrown : Block) (before : Catches), Catches.Tracks thrown
    (executeCatches env catches) before (walkCatches env thrown catches before))

include tracks follows clauses

/-- A run through a `try` comes out of its body or of one of its clauses. -/
theorem reads_rescue {walk : Walk} {known : Set String}
    (reporting : walk.Reporting) (inside : walk.scope.Within known) :
    let tried := walk.within walk.block.child (walkStmts env body)
    let caught := walkCatches env (afterThrow walk.block tried.1) catches { walk := tried.2 }
    caught.walk.ledger.undefined = walk.ledger.undefined →
      ((execute env body).rescue (executeCatches env catches)).Reads known
        (LeftWith (caught.branches ++ [tried.1])) := by
  intro tried caught equal
  have stepBody := tracks.grows { walk with block := walk.block.child }
  have caughtTracks := clauses (afterThrow walk.block tried.1) { walk := tried.2 }
  have passes : Walk.Passes (walkStmts env body) { walk with block := walk.block.child } :=
    ⟨reporting, Nat.le_antisymm (caughtTracks.undefined.trans_eq equal) stepBody⟩
  refine .rescue ?_ fun later grown => ?_
  · refine (tracks.reads passes inside).completes.mono fun later _ reached => ?_
    exact ⟨tried.1, Block.mem_ongoing (List.mem_append_right _ (List.mem_singleton_self _))
      (follows.live reached.1 (walk.live_withBlock rfl)), reached.2⟩
  · refine (caughtTracks.reads (tracks.reporting _ reporting)
      (Nat.le_antisymm (equal.trans_le stepBody) caughtTracks.undefined) ?_).mono
        fun _ _ left => left.subset (List.subset_append_left _ _)
    exact fun name defined => inside.mono grown name (of_has_afterThrow defined)

theorem tracks_try (finalSpan span : Span) :
    Tracks (executeKind env span (.tryCatch body catches none finalSpan))
      (walkStmtKind env (.tryCatch body catches none finalSpan)) := by
  let tried (walk : Walk) := walk.within walk.block.child (walkStmts env body)
  let caught (walk : Walk) :=
    walkCatches env (afterThrow walk.block (tried walk).1) catches { walk := (tried walk).2 }
  have closed (walk : Walk) : walkStmtKind env (.tryCatch body catches none finalSpan) walk =
      closeTry (tried walk).1 (caught walk) := by rw [walkStmtKind]; rfl
  have stepBody (walk : Walk) := tracks.grows { walk with block := walk.block.child }
  have caughtTracks (walk : Walk) :=
    clauses (afterThrow walk.block (tried walk).1) { walk := (tried walk).2 }
  rw [executeKind]
  refine { grows := fun walk => ?_, reporting := fun walk reporting => ?_, reads := ?_ }
  · rw [closed]
    exact Nat.le_trans (stepBody walk) (caughtTracks walk).undefined
  · rw [closed]
    exact (caughtTracks walk).reporting (tracks.reporting _ reporting)
  · intro walk known passes inside
    obtain ⟨reporting, equal⟩ := passes
    rw [closed] at equal ⊢
    refine (reads_rescue tracks follows clauses reporting inside equal).mono
      fun later grown left =>
        within_closeTry ((caughtTracks walk).counted.trans (Nat.zero_add _)) left ?_
    unfold Walk.scope
    rw [(caughtTracks walk).block]
    exact inside.mono grown

theorem tracks_tryFinally {last : List Stmt}
    (finishes : Tracks (execute env last) (walkStmts env last)) (finalSpan span : Span) :
    Tracks (executeKind env span (.tryCatch body catches (some last) finalSpan))
      (walkStmtKind env (.tryCatch body catches (some last) finalSpan)) := by
  let tried (walk : Walk) := walk.within walk.block.child (walkStmts env body)
  let thrown (walk : Walk) := afterThrow walk.block (tried walk).1
  let caught (walk : Walk) := walkCatches env (thrown walk) catches { walk := (tried walk).2 }
  let finished (walk : Walk) := (caught walk).walk.within (thrown walk).child (walkStmts env last)
  let checked (walk : Walk) := checkFinally env body (tried walk).1
    ((catches.map (·.body)).zip (caught walk).branches) last finalSpan (finished walk).1
    (finished walk).2
  have closed (walk : Walk) : walkStmtKind env (.tryCatch body catches (some last) finalSpan) walk =
      closeFinally (finished walk).1
        (closeTry (tried walk).1 { caught walk with walk := checked walk }) := by
    rw [walkStmtKind]
    rfl
  have ledger (walk : Walk) : (checked walk).ledger = (finished walk).2.ledger :=
    (idle_checkFinally env ..).2
  have stepBody (walk : Walk) := tracks.grows { walk with block := walk.block.child }
  have caughtTracks (walk : Walk) := clauses (thrown walk) { walk := (tried walk).2 }
  have stepLast (walk : Walk) :=
    finishes.grows { (caught walk).walk with block := (thrown walk).child }
  rw [executeKind]
  refine { grows := fun walk => ?_, reporting := fun walk reporting => ?_, reads := ?_ }
  · rw [closed]
    show _ ≤ (checked walk).ledger.undefined
    rw [ledger]
    exact Nat.le_trans (stepBody walk) (Nat.le_trans (caughtTracks walk).undefined (stepLast walk))
  · rw [closed]
    show (checked walk).ledger.enabled = true ∧ (checked walk).ledger.tolerates = false
    rw [ledger]
    exact finishes.reporting _ ((caughtTracks walk).reporting (tracks.reporting _ reporting))
  · intro walk known passes inside
    obtain ⟨reporting, equal⟩ := passes
    rw [closed] at equal ⊢
    change (checked walk).ledger.undefined = _ at equal
    rw [ledger] at equal
    have first := Nat.le_trans (stepBody walk) (caughtTracks walk).undefined
    have passesLast : Walk.Passes (walkStmts env last)
        { (caught walk).walk with block := (thrown walk).child } :=
      ⟨(caughtTracks walk).reporting (tracks.reporting _ reporting),
        Nat.le_antisymm (equal.trans_le first) (stepLast walk)⟩
    have lastReads (later : Set String) (grown : known ⊆ later) :
        (execute env last).Reads later (finished walk).1.scope.Within :=
      finishes.reads passesLast fun name defined =>
        inside.mono grown name (of_has_afterThrow defined)
    refine (reads_rescue tracks follows clauses reporting inside
      (Nat.le_antisymm ((stepLast walk).trans_eq equal) first)).ensuring lastReads ?_
    intro later further grown grownFurther left insideLast
    refine within_closeFinally (within_closeTry
      ((caughtTracks walk).counted.trans (Nat.zero_add _)) (left.mono grownFurther) ?_) insideLast
    have outer : (checked walk).block = walk.block :=
      (block_checkFinally env ..).trans (caughtTracks walk).block
    show (checked walk).block.scope.Within further
    rw [outer]
    exact inside.mono (grown.trans grownFurther)

end

end Flow

end PhpAudit
