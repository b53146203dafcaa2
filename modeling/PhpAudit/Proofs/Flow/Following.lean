/-
This file says when the steps of a walk follow the runs of the code that is walked: control goes on
where some run completes, and a run that returns is noticed. The relation is carried through the
composite statements. Branches are walked in blocks of their own, which start without exits, so what
holds of the branches holds of the block in which they are joined.
-/

import PhpAudit.Proofs.Flow.Liveness

namespace PhpAudit

open Execution

/-- A `return` was seen on a path that control reaches. -/
def Walk.MayReturn (walk : Walk) : Prop :=
  walk.record.possible.returns = true

def Block.MayReturn (block : Block) : Prop :=
  block.possible.returns = true

/-- The steps of a walk follow the runs of the code that is walked. -/
structure Follows (runs : Runs Leave) (steps : Walk → Walk) : Prop where
  /-- Control goes on after code that some run completes -/
  live : runs.EndsIn none → ∀ {walk : Walk}, walk.Live → (steps walk).Live
  /-- A run that returns is noticed -/
  returns : runs.EndsIn (some .returned) → ∀ {walk : Walk}, walk.Live → (steps walk).MayReturn
  /-- What was noticed is not forgotten -/
  keeps : ∀ {walk : Walk}, walk.MayReturn → (steps walk).MayReturn

/--
The statements whose exits the walk follows. Left out are `switch` and `do`; `break` and `continue`
stand in loops, and the step of a `for` loop, which the walk takes before the body, is quiet.
-/
def followsFlow (inLoop : Bool) : StmtKind → Bool
  | .breaks | .continues => inLoop
  | .forLoop _ _ step _ => step.all (everyExpr isQuiet)
  | .switch .. | .doWhile .. => false
  | _ => true

/-- Statements of the fragment, at any depth. -/
abbrev Followed (inLoop : Bool) (body : List Stmt) : Prop :=
  everyStmt (everyExpr followsExits) followsFlow inLoop body = true

namespace Exits

@[simp]
theorem returns_union (first second : Exits) :
    (first ∪ second).returns = (first.returns || second.returns) := rfl

theorem returns_of_le {first second : Exits} (le : first ≤ second)
    (returns : first.returns = true) : second.returns = true :=
  (le_iff.mp le).1 returns

end Exits

namespace Follows

variable {first second runs : Runs Leave} {before after steps : Walk → Walk}

theorem seq (left : Follows first before) (right : Follows second after) :
    Follows (first.seq second) fun walk => after (before walk) where
  live ends _ live := by
    obtain ⟨ends, nextEnds⟩ := Runs.endsIn_seq_none.mp ends
    exact right.live nextEnds (left.live ends live)
  returns ends _ live := by
    rcases Runs.endsIn_seq_some.mp ends with ends | ⟨ends, nextEnds⟩
    · exact right.keeps (left.returns ends live)
    · exact right.returns nextEnds (left.live ends live)
  keeps returned := right.keeps (left.keeps returned)

/-- Steps that leave the record alone, for code that does not return. -/
theorem of_record (kept : ∀ walk, (steps walk).record = walk.record)
    (stays : ¬ runs.EndsIn (some .returned)) : Follows runs steps where
  live _ _ live := Flow.live_of_record (kept _) live
  returns ends := absurd ends stays
  keeps returned := by
    unfold Walk.MayReturn at *
    rwa [kept]

/-- Other steps with the same record. -/
theorem congr_record (follows : Follows runs before)
    (same : ∀ walk, (after walk).record = (before walk).record) : Follows runs after where
  live ends _ live := Flow.live_of_record (same _) (follows.live ends live)
  returns ends walk live := by
    unfold Walk.MayReturn
    rw [same]
    exact follows.returns ends live
  keeps returned := by
    unfold Walk.MayReturn
    rw [same]
    exact follows.keeps returned

/-- Steps before the code that leave the record alone. -/
theorem record_then (follows : Follows runs after)
    (kept : ∀ walk, (before walk).record = walk.record) :
    Follows runs fun walk => after (before walk) where
  live ends _ live := follows.live ends (Flow.live_of_record (kept _) live)
  returns ends _ live := follows.returns ends (Flow.live_of_record (kept _) live)
  keeps returned := follows.keeps (by
    unfold Walk.MayReturn at *
    rwa [kept])

/-- The walk over an expression. -/
theorem of_drift {runs : Runs Abort}
    (drift : ∀ walk : Walk, Drift True walk.record (steps walk).record)
    (live : runs.EndsIn none → ∀ {walk : Walk}, walk.Live → (steps walk).Live) :
    Follows runs.lift steps where
  live ends := live (Runs.endsIn_lift_none.mp ends)
  returns ends := by
    obtain ⟨_, equal⟩ := Runs.endsIn_lift_some ends
    cases equal
  keeps returned := Exits.returns_of_le (drift _).possible_le returned

/-- An exit, recorded as such. -/
theorem leave {exit : Leave} (exits : Exits) (agrees : exit = .returned → exits.returns = true) :
    Follows (Runs.leave exit) fun walk => walk.leave exits where
  live ends := by simp at ends
  returns ends walk live := by
    rw [Runs.endsIn_leave, Option.some.injEq] at ends
    unfold Walk.Live at live
    unfold Walk.MayReturn
    rw [Walk.record_leave, ExitRecord.leave, if_pos live]
    simp [agrees ends.symm]
  keeps returned := by
    unfold Walk.MayReturn at *
    rw [Walk.record_leave, ExitRecord.leave]
    split
    · simp [returned]
    · exact returned

end Follows

/-! ### Blocks -/

namespace Block

@[simp]
theorem record_mapScope (block : Block) (change : Scope → Scope) :
    (block.mapScope change).record = block.record := rfl

theorem mayReturn_of_record {block other : Block} (same : other.record = block.record)
    (returned : block.MayReturn) : other.MayReturn := by
  have equal : other.possible = block.possible := congrArg ExitRecord.possible same
  unfold MayReturn at *
  rwa [equal]

theorem continues_of_record {block other : Block} (same : other.record = block.record)
    (continues : block.continues = true) : other.continues = true := by
  have equal : other.exits = block.exits := congrArg ExitRecord.exits same
  unfold Block.continues at *
  rwa [equal]

/-- The exits that some branch may take are collected. -/
theorem returns_foldl_possible (branches : List Block) (start : Exits) :
    (branches.foldl (fun exits branch => exits ∪ branch.possible) start).returns = true ↔
      start.returns = true ∨ ∃ branch ∈ branches, branch.MayReturn := by
  induction branches generalizing start with
  | nil => simp
  | cons branch rest inductionHypothesis =>
    rw [List.foldl_cons, inductionHypothesis]
    simp [MayReturn, or_assoc]

end Block

namespace Walk

theorem live_withBlock (walk : Walk) {block : Block} (continues : block.continues = true) :
    ({ walk with block } : Walk).Live :=
  continues

/-- A branch starts without exits and is joined as one that may not run. -/
theorem follows_optional {runs : Runs Leave} {steps : Walk → Walk} (follows : Follows runs steps)
    (start : Block → Block) (fresh : ∀ block, (start block).continues = true) :
    (∀ {walk : Walk}, walk.Live → ((walk.within (start walk.block) steps).2.mapBlock
      (·.mergeOptional (walk.within (start walk.block) steps).1)).Live) ∧
    (∀ {walk : Walk}, walk.MayReturn ∨ runs.EndsIn (some .returned) →
      ((walk.within (start walk.block) steps).2.mapBlock
        (·.mergeOptional (walk.within (start walk.block) steps).1)).MayReturn) := by
  constructor
  · intro walk live
    exact live
  · intro walk returned
    show (walk.block.possible ∪ _).returns = true
    rw [Exits.returns_union, Bool.or_eq_true]
    rcases returned with returned | ends
    · exact .inl returned
    · exact .inr (follows.returns ends (live_withBlock walk (fresh walk.block)))

end Walk

namespace Flow

/-- A loop whose body is walked once, as a branch that may not run. -/
theorem follows_loop {test body step : Runs Leave} {testing : Walk → Walk}
    {walking : Walk → Walk → Walk} (tested : Follows test testing)
    (walked : ∀ outer, Follows body (walking outer)) (start : Block → Block)
    (fresh : ∀ block, (start block).continues = true) (stepped : ¬ step.EndsIn (some .returned)) :
    Follows (Runs.loop test body step) fun walk =>
      let outer := testing walk
      (outer.within (start outer.block) (walking outer)).2.mapBlock
        (·.mergeOptional (outer.within (start outer.block) (walking outer)).1) where
  live ends _ live :=
    (Walk.follows_optional (walked _) start fresh).1 (tested.live (Runs.endsIn_loop_none ends) live)
  returns ends walk live := by
    refine (Walk.follows_optional (walked _) start fresh).2 ?_
    rcases Runs.endsIn_loop_some ends with equal | ends | ends | ⟨_, ends, _⟩
    · cases equal
    · exact .inl (tested.returns ends live)
    · exact absurd ends stepped
    · exact .inr ends
  keeps returned :=
    (Walk.follows_optional (walked _) start fresh).2 (.inl (tested.keeps returned))

end Flow

/-! ### Branches of an `if` -/

namespace Flow.Chain

/-- A `return` was seen before the statement or in one of the branches so far. -/
def MayReturn (chain : Chain) : Prop :=
  chain.walk.MayReturn ∨ ∃ branch ∈ chain.branches, branch.MayReturn

/-- Walking further branches, which stand for `runs`, after the test of `before` was false. -/
structure Extends (runs : Runs Leave) (before after : Chain) : Prop where
  block : after.walk.block = before.walk.block
  no : after.no.continues = true
  links : before.links ≤ after.links
  keeps : before.MayReturn → after.MayReturn
  reaches : runs.EndsIn none → 0 < after.links
  returns : runs.EndsIn (some .returned) → after.MayReturn

theorem live_close {chain : Chain} (continuesInFalse : Bool) (live : chain.walk.Live)
    (no : chain.no.continues = true) (reached : 0 < chain.links) :
    (chain.close continuesInFalse).Live := by
  have notZero : (chain.links == 0) = false := by simp; omega
  unfold close Walk.Live
  rw [Walk.record_dropMarkers]
  show Exits.isEmpty (if chain.links == 0 && _ then _ else _) = true
  rw [notZero, Bool.false_and, if_neg Bool.false_ne_true]
  cases continuesInFalse
  · exact live
  · exact no

theorem mayReturn_close {chain : Chain} (continuesInFalse : Bool) (returned : chain.MayReturn) :
    (chain.close continuesInFalse).MayReturn := by
  unfold close Walk.MayReturn
  rw [Walk.record_dropMarkers]
  show (chain.branches.foldl (fun exits (branch : Block) => exits ∪ branch.possible)
    _).returns = true
  rw [Block.returns_foldl_possible]
  refine returned.imp_left fun returned => ?_
  cases continuesInFalse
  · exact returned
  · show (_ ∪ chain.walk.block.possible).returns = true
    rw [Exits.returns_union, Bool.or_eq_true]
    exact .inr returned

/-- Joins further branches to further branches. -/
theorem Extends.trans {first second : Runs Leave} {before between after : Chain}
    (left : Extends first before between) (right : Extends second between after) :
    Extends (first ∪ second) before after where
  block := right.block.trans left.block
  no := right.no
  links := left.links.trans right.links
  keeps returned := right.keeps (left.keeps returned)
  reaches ends := (Runs.endsIn_union.mp ends).elim
    (fun ends => (left.reaches ends).trans_le right.links) right.reaches
  returns ends := (Runs.endsIn_union.mp ends).elim
    (fun ends => right.keeps (left.returns ends)) right.returns

theorem Extends.mono {runs fewer : Runs Leave} {before after : Chain}
    (extended : Extends runs before after)
    (ends : ∀ exit, fewer.EndsIn exit → runs.EndsIn exit) : Extends fewer before after :=
  { extended with
    reaches := fun reached => extended.reaches (ends _ reached)
    returns := fun returned => extended.returns (ends _ returned) }

/-- Adds a branch that starts where its test is true. -/
def pushBranch (env : Env) (initial : Scope) (body : List Stmt) (split : Split) (walk : Walk)
    (chain : Chain) : Chain :=
  ({ chain with markers := split.markers, no := split.no } : Chain).push initial
    (walk.within split.yes (walkStmts env body)).1 (walk.within split.yes (walkStmts env body)).2

theorem links_push (chain : Chain) (initial : Scope) (branch : Block) (walk : Walk) :
    (chain.push initial branch walk).links =
      if branch.continues then chain.links + 1 else chain.links := rfl

/-- A branch extends the chain by its body, if its test can be true. -/
theorem extends_pushBranch {env : Env} {body : List Stmt} {test : Runs Leave}
    (follows : Follows (execute env body) (walkStmts env body)) (initial : Scope) (split : Split)
    (walk : Walk) (chain : Chain) (same : walk.block = chain.walk.block)
    (no : split.no.continues = true) (yes : test.EndsIn none → split.yes.continues = true)
    (quiet : ¬ test.EndsIn (some .returned)) :
    Extends (test.seq (execute env body)) chain (chain.pushBranch env initial body split walk) := by
  constructor
  · exact same
  · exact no
  · unfold pushBranch
    rw [links_push]
    split <;> simp
  · rintro (returned | ⟨branch, member, returned⟩)
    · left
      show walk.block.possible.returns = true
      rw [same]
      exact returned
    · exact .inr ⟨branch, List.mem_append_left _ member, returned⟩
  · intro ends
    obtain ⟨tested, ends⟩ := Runs.endsIn_seq_none.mp ends
    have continues : (walk.within split.yes (walkStmts env body)).1.continues = true :=
      follows.live ends (walk.live_withBlock (yes tested))
    unfold pushBranch
    rw [links_push, if_pos continues]
    exact Nat.succ_pos _
  · intro ends
    rcases Runs.endsIn_seq_some.mp ends with ends | ⟨tested, ends⟩
    · exact absurd ends quiet
    · exact .inr ⟨_, List.mem_append_right _ (List.mem_singleton_self _),
        follows.returns ends (walk.live_withBlock (yes tested))⟩

end Flow.Chain

namespace Execution.Runs

theorem not_returned_lift (runs : Runs Abort) : ¬ runs.lift.EndsIn (some .returned) := by
  intro ends
  obtain ⟨_, equal⟩ := Runs.endsIn_lift_some ends
  cases equal

end Execution.Runs

namespace Flow

variable (env : Env)

/-- The block in which a test is true, at the start of its branch. -/
theorem continues_yes {test : Expr} (followed : everyExpr (pacesExits env) test = true) (walk : Walk)
    (markers : List String) (block : Block) (completes : (evaluate env test).lift.EndsIn none) :
    ((walkTest env false false test (.start walk markers)).split block).yes.continues = true :=
  live_test env false false test followed (Runs.endsIn_lift_none.mp completes)
    (.start walk markers) rfl

/-- The block in which a test is false. -/
theorem continues_no (test : Expr) (walk : Walk) (markers : List String) (block : Block) :
    ((walkTest env false false test (.start walk markers)).split block).no.continues = true :=
  Block.continues_of_record (record_otherwise_test env false false test (.start walk markers)) rfl

/-- The runs of a test with two branches end as those of one of them. -/
theorem endsIn_branches {test yes no : Runs Leave} {exit : Option Leave}
    (ends : (test.seq (yes ∪ no)).EndsIn exit) : Runs.EndsIn (test.seq yes ∪ no) exit := by
  cases exit with
  | none =>
    rw [Runs.endsIn_seq_none, Runs.endsIn_union] at ends
    rw [Runs.endsIn_union, Runs.endsIn_seq_none]
    tauto
  | some exit =>
    rw [Runs.endsIn_seq_some, Runs.endsIn_union] at ends
    rw [Runs.endsIn_union, Runs.endsIn_seq_some]
    tauto

theorem extends_orIf {test : Expr} {body : List Stmt} {rest : Otherwise} (span : Span)
    (followed : everyExpr (pacesExits env) test = true)
    (follows : Follows (execute env body) (walkStmts env body))
    (others : ∀ (initial : Scope) (chain : Chain), chain.no.continues = true →
      Chain.Extends (executeOtherwise env rest) chain (walkOtherwise env initial rest chain))
    (initial : Scope) (chain : Chain) :
    Chain.Extends (executeOtherwise env (.orIf test body span rest)) chain
      (walkOtherwise env initial (.orIf test body span rest) chain) := by
  rw [executeOtherwise, walkOtherwise]
  let inner : Walk := { chain.walk with block := chain.no }
  let split := (walkTest env false false test (.start inner chain.markers)).split chain.no
  have pushed := Chain.extends_pushBranch follows initial split
    { split.walk with block := chain.walk.block } chain rfl
    (continues_no env test inner chain.markers chain.no)
    (continues_yes env followed inner chain.markers chain.no) (Runs.not_returned_lift _)
  exact (pushed.trans (others initial _ pushed.no)).mono fun _ => endsIn_branches

theorem extends_orElse {body : List Stmt}
    (follows : Follows (execute env body) (walkStmts env body)) (initial : Scope) (chain : Chain)
    (no : chain.no.continues = true) :
    Chain.Extends (executeOtherwise env (.orElse body)) chain
      (walkOtherwise env initial (.orElse body) chain) := by
  rw [executeOtherwise, walkOtherwise]
  have pushed := Chain.extends_pushBranch follows initial
    ⟨chain.walk, chain.no, chain.no, chain.markers⟩ chain.walk chain rfl no (fun _ => no)
    (show ¬ (Runs.done : Runs Leave).EndsIn (some .returned) by simp)
  exact pushed.mono fun exit ends => by cases exit <;> simpa using ends

theorem extends_nothing (initial : Scope) (chain : Chain) (no : chain.no.continues = true) :
    Chain.Extends (executeOtherwise env .nothing) chain
      (walkOtherwise env initial .nothing chain) := by
  rw [executeOtherwise, walkOtherwise]
  exact {
    block := rfl
    no := no
    links := Nat.le_succ _
    keeps := id
    reaches := fun _ => Nat.succ_pos _
    returns := fun ends => by simp at ends }

/-- The branches of an `if` before the first one. -/
def Chain.start (split : Split) : Chain :=
  ⟨split.walk, [], 0, split.markers, split.no⟩

/--
An `if` is a chain of branches. Only where it is a single one, with a test by `instanceof`, control
may go on in the false outcome.
-/
theorem walkStmtKind_branch (test : Expr) (body : List Stmt) (bodySpan : Span) (rest : Otherwise)
    (walk : Walk) :
    let split := (walkTest env false false test (.start walk [])).split walk.block
    ∃ continuesInFalse, (test.isNarrowing = false → continuesInFalse = false) ∧
      (rest ≠ .nothing → continuesInFalse = false) ∧
      walkStmtKind env (.branch test body bodySpan rest) walk =
        (walkOtherwise env walk.scope rest ((Chain.start split).pushBranch env walk.scope body split
          split.walk)).close continuesInFalse := by
  intro split
  cases rest with
  | nothing =>
    rw [walkStmtKind]
    exact ⟨_, by simp +contextual, fun more => absurd rfl more, rfl⟩
  | orElse body =>
    rw [walkStmtKind.eq_def]
    exact ⟨_, by simp +contextual, fun _ => Bool.and_false _, rfl⟩
  | orIf test body span rest =>
    rw [walkStmtKind.eq_def]
    exact ⟨_, by simp +contextual, fun _ => Bool.and_false _, rfl⟩

theorem follows_branch {test : Expr} {body : List Stmt} {rest : Otherwise} (bodySpan span : Span)
    (followed : everyExpr (pacesExits env) test = true)
    (follows : Follows (execute env body) (walkStmts env body))
    (others : ∀ (initial : Scope) (chain : Chain), chain.no.continues = true →
      Chain.Extends (executeOtherwise env rest) chain (walkOtherwise env initial rest chain)) :
    Follows (executeKind env span (.branch test body bodySpan rest))
      (walkStmtKind env (.branch test body bodySpan rest)) := by
  have extended (walk : Walk) :
      ∃ chain flag, walkStmtKind env (.branch test body bodySpan rest) walk = chain.close flag ∧
        Chain.Extends (executeKind env span (.branch test body bodySpan rest))
          (.start ((walkTest env false false test (.start walk [])).split walk.block)) chain := by
    obtain ⟨flag, -, -, equal⟩ := walkStmtKind_branch env test body bodySpan rest walk
    let split := (walkTest env false false test (.start walk [])).split walk.block
    have pushed := Chain.extends_pushBranch follows walk.scope split split.walk (.start split) rfl
      (continues_no env test walk [] walk.block)
      (continues_yes env followed walk [] walk.block) (Runs.not_returned_lift _)
    refine ⟨_, flag, equal, ?_⟩
    rw [executeKind]
    exact (pushed.trans (others walk.scope _ pushed.no)).mono fun _ => endsIn_branches
  constructor
  · intro ends walk live
    obtain ⟨chain, flag, equal, extended⟩ := extended walk
    rw [equal]
    exact chain.live_close flag (live_of_record (congrArg Block.record extended.block) live)
      extended.no (extended.reaches ends)
  · intro ends walk live
    obtain ⟨chain, flag, equal, extended⟩ := extended walk
    rw [equal]
    exact chain.mayReturn_close flag (extended.returns ends)
  · intro walk returned
    obtain ⟨chain, flag, equal, extended⟩ := extended walk
    rw [equal]
    exact chain.mayReturn_close flag (extended.keeps (.inl returned))

end Flow

/-! ### Exceptions -/

namespace Flow

variable (env : Env)

/-- Walking further clauses, which stand for `runs`. -/
structure Catches.Extends (runs : Runs Leave) (before after : Catches) : Prop where
  block : after.walk.block = before.walk.block
  branches : before.branches ⊆ after.branches
  reaches : runs.EndsIn none → ∃ branch ∈ after.branches, branch.continues = true
  returns : runs.EndsIn (some .returned) → ∃ branch ∈ after.branches, branch.MayReturn

@[simp]
theorem record_bindCaught (types : List String) (name : Option String) (walk : Walk) :
    (bindCaught env types name walk).record = walk.record := by
  unfold bindCaught
  split <;> rfl

/-- The first of some clauses, and the others. -/
theorem extends_catch {body : List Stmt} {rest : List Catch} (types : List String)
    (name : Option String) (span : Span)
    (follows : Follows (execute env body) (walkStmts env body))
    (others : ∀ (thrown : Block) (catches : Catches), catches.Extends (executeCatches env rest)
      (walkCatches env thrown rest catches)) (thrown : Block) (catches : Catches) :
    catches.Extends (executeCatches env (⟨types, name, body, span⟩ :: rest))
      (walkCatches env thrown (⟨types, name, body, span⟩ :: rest) catches) := by
  have bound : Follows ((bindException span name).seq (execute env body))
      fun walk => walkStmts env body (bindCaught env types name walk) :=
    Follows.seq (Follows.of_record (record_bindCaught env types name)
      (endsIn_bindException span name _)) follows
  let clause := catches.walk.within thrown.child fun walk =>
    walkStmts env body (bindCaught env types name walk)
  have extended := others thrown (catches.push clause.1 clause.2)
  rw [executeCatches, walkCatches]
  have fresh : ({ catches.walk with block := thrown.child } : Walk).Live := rfl
  constructor
  · exact extended.block
  · exact List.Subset.trans (List.subset_append_left _ _) extended.branches
  · intro ends
    rcases Runs.endsIn_union.mp ends with ends | ends
    · exact ⟨_, extended.branches (List.mem_append_right _ (List.mem_singleton_self _)),
        bound.live ends fresh⟩
    · exact extended.reaches ends
  · intro ends
    rcases Runs.endsIn_union.mp ends with ends | ends
    · exact ⟨_, extended.branches (List.mem_append_right _ (List.mem_singleton_self _)),
        bound.returns ends fresh⟩
    · exact extended.returns ends

theorem live_closeTry {tried : Block} {catches : Catches} (live : catches.walk.Live)
    (reached : tried.continues = true ∨ ∃ branch ∈ catches.branches, branch.continues = true) :
    (closeTry tried catches).Live := by
  have someStays : (!tried.continues && catches.branches.all fun branch => !branch.continues) =
      false := by
    rcases reached with reached | ⟨branch, member, reached⟩
    · simp [reached]
    · simp only [Bool.and_eq_false_iff, List.all_eq_false]
      exact .inr ⟨branch, member, by simp [reached]⟩
  unfold closeTry Walk.Live
  show Exits.isEmpty (if _ then _ else _) = true
  rw [someStays, if_neg Bool.false_ne_true]
  exact live

theorem mayReturn_closeTry {tried : Block} {catches : Catches}
    (returned : catches.walk.MayReturn ∨ tried.MayReturn ∨
      ∃ branch ∈ catches.branches, branch.MayReturn) : (closeTry tried catches).MayReturn := by
  show (catches.branches.foldl (fun exits (branch : Block) => exits ∪ branch.possible)
    catches.walk.block.possible ∪ tried.possible).returns = true
  rw [Exits.returns_union, Bool.or_eq_true, Block.returns_foldl_possible]
  exact (or_assoc.mpr (returned.imp_right Or.symm))

theorem live_closeFinally {finished : Block} (reached : finished.continues = true) {walk : Walk}
    (live : walk.Live) : (closeFinally finished walk).Live := by
  unfold closeFinally Walk.Live
  show Exits.isEmpty (if finished.continues then _ else _) = true
  rw [if_pos reached]
  exact live

theorem mayReturn_closeFinally {finished : Block} {walk : Walk}
    (returned : walk.MayReturn ∨ finished.MayReturn) : (closeFinally finished walk).MayReturn := by
  show (walk.block.possible ∪ finished.possible).returns = true
  rw [Exits.returns_union, Bool.or_eq_true]
  exact returned

@[simp]
theorem block_checkFinally (body : List Stmt) (tried : Block) (catches : List (List Stmt × Block))
    (final : List Stmt) (finalSpan : Span) (finished : Block) (walk : Walk) :
    (checkFinally env body tried catches final finalSpan finished walk).block = walk.block := by
  unfold checkFinally
  split
  · rfl
  · split
    · split
      · induction overridden body tried catches generalizing walk with
        | nil => rfl
        | cons point rest inductionHypothesis =>
          dsimp only
          rw [List.foldl_cons, inductionHypothesis]
          rfl
      · rfl
    · rfl

section

variable {body : List Stmt} {catches : List Catch}
  (follows : Follows (execute env body) (walkStmts env body))
  (clauses : ∀ (thrown : Block) (before : Catches),
    before.Extends (executeCatches env catches) (walkCatches env thrown catches before))

include follows clauses

/-- A `try` that some run completes has a part that control reaches the end of. -/
theorem continues_rescue (walk : Walk) (thrown : Block) (before : Catches)
    (ends : ((execute env body).rescue (executeCatches env catches)).EndsIn none) :
    (walk.within walk.block.child (walkStmts env body)).1.continues = true ∨
      ∃ branch ∈ (walkCatches env thrown catches before).branches, branch.continues = true :=
  (Runs.endsIn_rescue ends).imp (follows.live · (walk.live_withBlock rfl)) (clauses _ _).reaches

theorem mayReturn_rescue (walk : Walk) (thrown : Block) (before : Catches)
    (ends : ((execute env body).rescue (executeCatches env catches)).EndsIn (some .returned)) :
    (walk.within walk.block.child (walkStmts env body)).1.MayReturn ∨
      ∃ branch ∈ (walkCatches env thrown catches before).branches, branch.MayReturn :=
  (Runs.endsIn_rescue ends).imp (follows.returns · (walk.live_withBlock rfl)) (clauses _ _).returns

theorem follows_try (finalSpan span : Span) :
    Follows (executeKind env span (.tryCatch body catches none finalSpan))
      (walkStmtKind env (.tryCatch body catches none finalSpan)) := by
  have rescued (walk : Walk) : ∃ thrown,
      walkStmtKind env (.tryCatch body catches none finalSpan) walk =
      closeTry (walk.within walk.block.child (walkStmts env body)).1
        (walkCatches env thrown catches
          { walk := (walk.within walk.block.child (walkStmts env body)).2 }) := by
    rw [walkStmtKind]
    exact ⟨_, rfl⟩
  rw [executeKind]
  constructor
  · intro ends walk live
    obtain ⟨thrown, equal⟩ := rescued walk
    rw [equal]
    exact live_closeTry (live_of_record (congrArg Block.record (clauses _ _).block) live)
      (continues_rescue env follows clauses walk _ _ ends)
  · intro ends walk live
    obtain ⟨thrown, equal⟩ := rescued walk
    rw [equal]
    exact mayReturn_closeTry (.inr (mayReturn_rescue env follows clauses walk _ _ ends))
  · intro walk returned
    obtain ⟨thrown, equal⟩ := rescued walk
    rw [equal]
    exact mayReturn_closeTry (.inl
      (Block.mayReturn_of_record (congrArg Block.record (clauses _ _).block) returned))

theorem follows_tryFinally {last : List Stmt}
    (finishes : Follows (execute env last) (walkStmts env last)) (finalSpan span : Span) :
    Follows (executeKind env span (.tryCatch body catches (some last) finalSpan))
      (walkStmtKind env (.tryCatch body catches (some last) finalSpan)) := by
  have rescued (walk : Walk) : ∃ thrown before after,
      after.block = (walkCatches env thrown catches before).walk.block ∧
      before.walk.block = walk.block ∧
      walkStmtKind env (.tryCatch body catches (some last) finalSpan) walk =
        closeFinally ((walkCatches env thrown catches before).walk.within thrown.child
            (walkStmts env last)).1
          (closeTry (walk.within walk.block.child (walkStmts env body)).1
            { walkCatches env thrown catches before with walk := after }) := by
    let tried := walk.within walk.block.child (walkStmts env body)
    let thrown := afterThrow tried.2.block tried.1
    let caught := walkCatches env thrown catches { walk := tried.2 }
    let finished := caught.walk.within thrown.child (walkStmts env last)
    refine ⟨thrown, { walk := tried.2 }, checkFinally env body tried.1
      ((catches.map (·.body)).zip caught.branches) last finalSpan finished.1 finished.2, ?_, rfl, ?_⟩
    · rw [block_checkFinally]
      rfl
    · rw [walkStmtKind]
  rw [executeKind]
  constructor
  · intro ends walk live
    obtain ⟨ends, lastEnds⟩ := Runs.endsIn_ensuring_none ends
    obtain ⟨thrown, before, after, same, outer, equal⟩ := rescued walk
    have kept : after.block = walk.block := same.trans ((clauses _ _).block.trans outer)
    rw [equal]
    exact live_closeFinally (finishes.live lastEnds (Walk.live_withBlock _ rfl))
      (live_closeTry (live_of_record (congrArg Block.record kept) live)
        (continues_rescue env follows clauses walk _ _ ends))
  · intro ends walk live
    obtain ⟨thrown, before, after, same, outer, equal⟩ := rescued walk
    rw [equal]
    refine mayReturn_closeFinally ?_
    rcases Runs.endsIn_ensuring_some ends with ends | ends
    · exact .inl (mayReturn_closeTry (.inr (mayReturn_rescue env follows clauses walk _ _ ends)))
    · exact .inr (finishes.returns ends (Walk.live_withBlock _ rfl))
  · intro walk returned
    obtain ⟨thrown, before, after, same, outer, equal⟩ := rescued walk
    have kept : after.block = walk.block := same.trans ((clauses _ _).block.trans outer)
    rw [equal]
    exact mayReturn_closeFinally (.inl (mayReturn_closeTry (.inl
      (Block.mayReturn_of_record (congrArg Block.record kept) returned))))

end

end Flow

end PhpAudit
