/-
This file proves that the exits which a block is sure to take are among those that it may take, at every
point of a walk, and that an exit which is possible stays possible. Both follow from what a walk over
some code does to the record of the block at hand: it adds possible exits, among those that are allowed,
and if the sure exits were possible before, they are so afterwards and at the points in between.

Other blocks start without exits. So what holds of a branch from its start to its end needs no
assumption, and where branches are joined, sure exits are taken over from blocks whose possible exits
are taken over too.
-/

import PhpAudit.Proofs.Flow.Leaving
import PhpAudit.Proofs.Flow.Recording
import PhpAudit.Proofs.Flow.Switching

namespace PhpAudit

/-! ### Sets of exits -/

namespace Exits

/-- Every exit. -/
def all : Exits :=
  { returns := true, breaks := true, continues := true, throws := true, dies := true }

instance (first second : Exits) : Decidable (first ≤ second) :=
  inferInstanceAs (Decidable (first ∪ second = second))

theorem le_all (exits : Exits) : exits ≤ all := by
  simp [le_iff, all]

theorem none_le (exits : Exits) : none ≤ exits := by
  simp [le_iff, none]

theorem union_assoc (first second third : Exits) :
    first ∪ second ∪ third = first ∪ (second ∪ third) := by
  show union (union first second) third = union first (union second third)
  simp [union, Bool.or_assoc]

theorem union_le {first second bound : Exits} (left : first ≤ bound) (right : second ≤ bound) :
    first ∪ second ≤ bound :=
  calc first ∪ second ∪ bound
    _ = first ∪ (second ∪ bound) := union_assoc first second bound
    _ = first ∪ bound := congrArg (first ∪ ·) right
    _ = bound := left

theorem le_union_right (first second : Exits) : second ≤ first ∪ second := by
  rw [le_iff]
  simp +contextual [Union.union, union]

theorem diff_le (exits removed : Exits) : exits \ removed ≤ exits := by
  rw [le_iff]
  simp +contextual [SDiff.sdiff, diff]

section

variable {Item : Type} {part : Item → Exits} {items : List Item} {start bound : Exits}

theorem foldl_le (initial : start ≤ bound) (parts : ∀ item ∈ items, part item ≤ bound) :
    items.foldl (fun exits item => exits ∪ part item) start ≤ bound := by
  induction items generalizing start with
  | nil => exact initial
  | cons item rest inductionHypothesis =>
    exact inductionHypothesis (union_le initial (parts item List.mem_cons_self))
      fun item member => parts item (List.mem_cons_of_mem _ member)

theorem le_foldl : start ≤ items.foldl (fun exits item => exits ∪ part item) start := by
  induction items generalizing start with
  | nil => exact le_refl start
  | cons item rest inductionHypothesis => exact le_trans (le_union_left start _) inductionHypothesis

theorem le_foldl_of_mem {item : Item} (member : item ∈ items) :
    part item ≤ items.foldl (fun exits item => exits ∪ part item) start := by
  induction items generalizing start with
  | nil => cases member
  | cons head rest inductionHypothesis =>
    rcases List.mem_cons.mp member with rfl | member
    · exact le_trans (le_union_right start _) le_foldl
    · exact inductionHypothesis member

end

end Exits

/-! ### Records -/

namespace ExitRecord

/-- The record of a block in which nothing was walked yet. -/
def fresh : ExitRecord :=
  ⟨.none, .none⟩

/-- The exits that the block is sure to take are possible. -/
def Sound (record : ExitRecord) : Prop :=
  record.exits ≤ record.possible

theorem sound_fresh : fresh.Sound :=
  Exits.none_le _

end ExitRecord

/-- What a walk may do to a record. -/
structure Accrues (allowed : Exits) (first last : ExitRecord) : Prop where
  kept : first.possible ≤ last.possible
  bounded : last.possible ≤ first.possible ∪ allowed
  sound : first.Sound → last.Sound

namespace Accrues

variable {allowed : Exits} {first second third : ExitRecord}

theorem refl (record : ExitRecord) : Accrues allowed record record :=
  ⟨Exits.le_refl _, Exits.le_union_left _ _, id⟩

theorem trans (left : Accrues allowed first second) (right : Accrues allowed second third) :
    Accrues allowed first third where
  kept := Exits.le_trans left.kept right.kept
  bounded := Exits.le_trans right.bounded (Exits.union_le left.bounded (Exits.le_union_right _ _))
  sound sound := right.sound (left.sound sound)

/-- A block is left by an exit that is allowed. -/
theorem leave {exits : Exits} (permitted : exits ≤ allowed) (record : ExitRecord) :
    Accrues allowed record (record.leave exits) := by
  unfold ExitRecord.leave
  split
  · exact {
      kept := Exits.le_union_left _ _
      bounded := Exits.union_le (Exits.le_union_left _ _)
        (Exits.le_trans permitted (Exits.le_union_right _ _))
      sound := fun _ => Exits.le_union_right _ _ }
  · exact refl record

/-- The sure exits before some code are sure after it, if the code may be skipped. -/
theorem restore (accrues : Accrues allowed first second) :
    Accrues allowed first ⟨first.exits, second.possible⟩ where
  kept := accrues.kept
  bounded := accrues.bounded
  sound sound := Exits.le_trans sound accrues.kept

/-- Fewer exits are sure, or none. -/
theorem weaken {exits : Exits} (fewer : exits ≤ first.exits) :
    Accrues allowed first ⟨exits, first.possible⟩ where
  kept := Exits.le_refl _
  bounded := Exits.le_union_left _ _
  sound sound := Exits.le_trans fewer sound

/-- Possible exits are added, and in some cases sure ones that are possible. -/
theorem join (taken possible : Exits) (left : Bool) (kept : first.possible ≤ possible)
    (bounded : possible ≤ first.possible ∪ allowed) (within : taken ≤ possible) :
    Accrues allowed first ⟨if left then first.exits ∪ taken else first.exits, possible⟩ where
  kept := kept
  bounded := bounded
  sound sound := by
    have before : first.exits ≤ possible := Exits.le_trans sound kept
    cases left
    · exact before
    · exact Exits.union_le before within

/-- Without asking which exits are added. -/
theorem widen (accrues : Accrues allowed first second) : Accrues .all first second where
  kept := accrues.kept
  bounded := Exits.le_trans (Exits.le_all _) (Exits.le_union_right _ _)
  sound := accrues.sound

theorem possible_le (accrues : Accrues allowed .fresh second) : second.possible ≤ allowed :=
  Exits.le_trans accrues.bounded (Exits.union_le (Exits.none_le _) (Exits.le_refl _))

theorem exits_le (accrues : Accrues allowed .fresh second) : second.exits ≤ second.possible :=
  accrues.sound ExitRecord.sound_fresh

end Accrues

/-- A block that was walked from its start on, with possible exits that are allowed. -/
def Block.Walked (allowed : Exits) (block : Block) : Prop :=
  Accrues allowed .fresh block.record

/-! ### Histories -/

/-- Records of one block, in order: what is sure is possible, and what is possible stays possible. -/
structure Coherent (records : List ExitRecord) : Prop where
  sound : ∀ record ∈ records, record.Sound
  kept : records.Pairwise fun earlier later => earlier.possible ≤ later.possible

/-- The history of code that is walked from a block with one record to a block with another. -/
structure History.Spans (allowed : Exits) (first last : ExitRecord) (history : History) : Prop
    extends Accrues allowed first last where
  between : ∀ record ∈ history.here, first.possible ≤ record.possible ∧
    record.possible ≤ last.possible ∧ (first.Sound → record.Sound)
  rising : history.here.Pairwise fun earlier later => earlier.possible ≤ later.possible
  branches : ∀ branch ∈ history.branches, Coherent branch

namespace History.Spans

variable {allowed : Exits} {first second third : ExitRecord} {history further : History}

theorem nothing (accrues : Accrues allowed first second) : Spans allowed first second nothing where
  toAccrues := accrues
  between := by simp [History.nothing]
  rising := .nil
  branches := by simp [History.nothing]

theorem append (left : Spans allowed first second history)
    (right : Spans allowed second third further) : Spans allowed first third (history ++ further) where
  toAccrues := left.toAccrues.trans right.toAccrues
  between record member := by
    rcases List.mem_append.mp member with member | member
    · obtain ⟨above, below, sound⟩ := left.between record member
      exact ⟨above, Exits.le_trans below right.kept, sound⟩
    · obtain ⟨above, below, sound⟩ := right.between record member
      exact ⟨Exits.le_trans left.kept above, below, fun start => sound (left.sound start)⟩
  rising := List.pairwise_append.mpr ⟨left.rising, right.rising, fun earlier member later next =>
    Exits.le_trans (left.between earlier member).2.1 (right.between later next).1⟩
  branches branch member :=
    (List.mem_append.mp member).elim (left.branches branch) (right.branches branch)

/-- The same points may lead to another record that has what was possible at them. -/
theorem change (spans : Spans allowed first second history) (accrues : Accrues allowed first third)
    (kept : second.possible ≤ third.possible) : Spans allowed first third history where
  toAccrues := accrues
  between record member := by
    obtain ⟨above, below, sound⟩ := spans.between record member
    exact ⟨above, Exits.le_trans below kept, sound⟩
  rising := spans.rising
  branches := spans.branches

theorem after (spans : Spans allowed first second history) (accrues : Accrues allowed second third) :
    Spans allowed first third history :=
  spans.change (spans.toAccrues.trans accrues) accrues.kept

theorem stage (record : ExitRecord) : Spans allowed record record (stage record) where
  toAccrues := .refl record
  between other member := by
    obtain rfl := List.mem_singleton.mp member
    exact ⟨Exits.le_refl _, Exits.le_refl _, id⟩
  rising := List.pairwise_singleton _ _
  branches := by simp [History.stage]

theorem around {before after : Walk} (spans : history.Spans allowed before.record after.record) :
    (History.around before history after).Spans allowed before.record after.record :=
  ((stage _).append spans).append (stage _)

/-- Code that may be skipped leaves the exits that were sure before. -/
theorem restore (spans : Spans allowed first second history) :
    Spans allowed first ⟨first.exits, second.possible⟩ history :=
  spans.change spans.toAccrues.restore (Exits.le_refl _)

theorem conditionally {before : Walk} {steps : Walk → Walk}
    (spans : history.Spans allowed before.record (steps before).record) :
    history.Spans allowed before.record (before.conditionally steps).record :=
  spans.restore

/-- Code that is walked from the start of a block. -/
theorem walked {block : Block} {after : Walk} (spans : history.Spans allowed block.record after.record)
    (start : block.record = .fresh) : after.block.Walked allowed :=
  (start ▸ spans.toAccrues : Accrues allowed .fresh after.record)

/-- Before some steps others may be taken that leave the record alone. -/
theorem from_eq (spans : Spans allowed second third history) (same : second = first) :
    Spans allowed first third history :=
  same ▸ spans

/-- After some steps others may be taken that leave the record alone. -/
theorem to_eq (spans : Spans allowed first second history) (same : third = second) :
    Spans allowed first third history :=
  same ▸ spans

theorem of_eq (same : second = first) : Spans allowed first second .nothing :=
  (nothing (.refl first)).to_eq same

theorem coherent (spans : Spans allowed first second history) (sound : first.Sound) :
    Coherent (first :: history.here ++ [second]) where
  sound := by
    intro record member
    simp only [List.cons_append, List.mem_cons, List.mem_append, List.not_mem_nil, or_false] at member
    rcases member with rfl | member | rfl
    · exact sound
    · exact (spans.between record member).2.2 sound
    · exact spans.sound sound
  kept := by
    simp only [List.cons_append, List.pairwise_cons, List.pairwise_append, List.mem_append,
      List.mem_singleton]
    refine ⟨?_, spans.rising, by simp, ?_⟩
    · rintro record (member | rfl)
      · exact (spans.between record member).1
      · exact spans.kept
    · rintro record member _ rfl
      exact (spans.between record member).2.1

/-- A block that is walked in place of the one at hand leaves the record of that one alone. -/
theorem within {other : Exits} (block : Block) (spans : Spans other block.record second history)
    (start : block.record = .fresh) (record : ExitRecord) :
    Spans allowed record record (within block history) where
  toAccrues := .refl record
  between := by simp [History.within]
  rising := .nil
  branches branch member := by
    rcases List.mem_cons.mp member with rfl | member
    · have whole := spans.coherent (start ▸ ExitRecord.sound_fresh)
      exact ⟨fun record member => whole.sound record (List.mem_append_left _ member),
        (List.pairwise_append.mp whole.kept).1⟩
    · exact spans.branches branch member

/-- A block that is made and never walked. -/
theorem unentered {block : Block} (start : block.record = .fresh) (record : ExitRecord) :
    Spans allowed record record (.within block .nothing) :=
  have idle : Spans .all block.record block.record .nothing := nothing (.refl _)
  idle.within block start record

end History.Spans

/-- Walking from one state to another, with the history in between. -/
abbrev Walk.Spans (allowed : Exits) (before after : Walk) (history : History) : Prop :=
  history.Spans allowed before.record after.record

/-! ### Callees -/

/-- Callees that never return end in exits that are allowed. -/
structure Index.CalleesWithin (allowed : Exits) (index : Index) : Prop where
  functions : ∀ info ∈ index.functions.values, info.exits ≤ allowed
  methods : ∀ declarer ∈ Hierarchy.declarers index, ∀ info ∈ declarer.methods.values,
    info.exits ≤ allowed

/-- The exits that code without `return` takes, and those in which its callees end, are allowed. -/
structure Env.Admits (allowed : Exits) (env : Env) : Prop where
  own : Exits.all \ Exits.byReturn ≤ allowed
  callees : env.index.CalleesWithin allowed

/-- If every exit is allowed, nothing is asked of the code. -/
theorem Env.admits_all (env : Env) : env.Admits .all where
  own := Exits.le_all _
  callees := ⟨fun _ _ => Exits.le_all _, fun _ _ _ _ => Exits.le_all _⟩

namespace Flow

variable {env : Env} {allowed : Exits}

theorem exits_le_of_callee? (admits : env.Admits allowed) {name : String} {info : FunctionInfo}
    (found : callee? env name = some info) : info.exits ≤ allowed := by
  have indexed {name : String} (found : env.index.function? name = some info) : info.exits ≤ allowed :=
    admits.callees.functions info (Merged.mem_values.mpr ⟨_, found⟩)
  unfold callee? at found
  dsimp only at found
  rw [Option.orElse_eq_orElse, Option.orElse_eq_or, Option.or_eq_some_iff] at found
  rcases found with found | ⟨-, found⟩
  · exact indexed found
  · obtain ⟨fallback, _, found⟩ := Option.bind_eq_some_iff.mp found
    exact indexed found

theorem exits_le_of_lookupMethod? (admits : env.Admits allowed) {owner method : String}
    {found : FoundMethod} (known : Walk.lookupMethod? env owner method = some found) :
    found.info.exits ≤ allowed := by
  unfold Walk.lookupMethod? at known
  split at known
  · obtain ⟨declarer, declares, member⟩ := (Hierarchy.findMethod?_some known).2
    exact admits.callees.methods declarer declares found.info member
  · cases known

theorem exits_le_of_staticCallee? (admits : env.Admits allowed) (ref : ClassRef)
    (method : Option String) : ∀ found ∈ staticCallee? env ref method, found.info.exits ≤ allowed := by
  intro found known
  unfold staticCallee? at known
  split at known
  · exact exits_le_of_lookupMethod? admits known
  · cases known

theorem exits_le_of_lookupMethodOf? (admits : env.Admits allowed) (walk : Walk) (object : Expr)
    (method : Option String) :
    ∀ found ∈ method.bind (walk.lookupMethodOf? env object), found.info.exits ≤ allowed := by
  intro found known
  obtain ⟨name, _, known⟩ := Option.bind_eq_some_iff.mp known
  unfold Walk.lookupMethodOf? at known
  split at known
  · obtain ⟨owner, _, known⟩ := List.exists_of_findSome?_eq_some known
    exact exits_le_of_lookupMethod? admits known
  · cases known

theorem accrues_leaveByCallee (env : Env) {exits : Exits} (permitted : exits ≤ allowed) (walk : Walk) :
    Accrues allowed walk.record (walk.leaveByCallee env exits).record := by
  unfold Walk.leaveByCallee
  split
  · rw [Walk.record_leave]
    exact .leave permitted _
  · exact .refl _

theorem accrues_leaveByFound (env : Env) {found : Option FoundMethod}
    (permitted : ∀ method ∈ found, method.info.exits ≤ allowed) (walk : Walk) :
    Accrues allowed walk.record (walk.leaveByFound env found).record := by
  cases found with
  | none => exact .refl _
  | some method => exact accrues_leaveByCallee env (permitted method rfl) walk

/-! ### Joins -/

theorem accrues_mergeOptional (block : Block) {branch : Block} (walked : branch.Walked allowed) :
    Accrues allowed block.record (block.mergeOptional branch).record :=
  .join .none _ false (Exits.le_union_left _ _)
    (Exits.union_le (Exits.le_union_left _ _)
      (Exits.le_trans walked.possible_le (Exits.le_union_right _ _))) (Exits.none_le _)

section

variable {branches : List Block} (walked : ∀ branch ∈ branches, branch.Walked allowed)

include walked

theorem walked_append {last : Block} (ended : last.Walked allowed) :
    ∀ branch ∈ branches ++ [last], branch.Walked allowed := by
  intro branch member
  rcases List.mem_append.mp member with member | member
  · exact walked branch member
  · obtain rfl := List.mem_singleton.mp member
    exact ended

theorem foldl_possible_le (before : Exits) :
    branches.foldl (fun exits branch => exits ∪ branch.possible) before ≤ before ∪ allowed :=
  Exits.foldl_le (Exits.le_union_left _ _) fun branch member =>
    Exits.le_trans (walked branch member).possible_le (Exits.le_union_right _ _)

/-- What branches are sure to take is possible in some of them. -/
theorem foldl_exits_le {taken : Block → Exits} (fewer : ∀ branch, taken branch ≤ branch.exits)
    {start before : Exits}
    (initial : start ≤ branches.foldl (fun exits branch => exits ∪ branch.possible) before) :
    branches.foldl (fun exits branch => exits ∪ taken branch) start ≤
      branches.foldl (fun exits branch => exits ∪ branch.possible) before :=
  Exits.foldl_le initial fun branch member =>
    Exits.le_trans (Exits.le_trans (fewer branch) (walked branch member).exits_le)
      (Exits.le_foldl_of_mem member)

theorem accrues_propagate (links : Nat) (block : Block) :
    Accrues allowed block.record (block.propagate branches links).record :=
  .join _ _ _ Exits.le_foldl (foldl_possible_le walked _)
    (foldl_exits_le walked (fun _ => Exits.le_refl _) (Exits.none_le _))

end

namespace Chain

/-- The branches of an `if` so far, when the record of the block around it is `outer`. -/
structure Sound (allowed : Exits) (outer : ExitRecord) (chain : Chain) : Prop where
  here : chain.walk.record = outer
  branches : ∀ branch ∈ chain.branches, branch.Walked allowed
  no : chain.no.record = .fresh

namespace Sound

variable {outer : ExitRecord} {chain : Chain} (sound : chain.Sound allowed outer)

include sound

theorem push (initial : Scope) {branch : Block} (walked : branch.Walked allowed) {walk : Walk}
    (same : walk.record = outer) : (chain.push initial branch walk).Sound allowed outer where
  here := same
  branches := walked_append sound.branches walked
  no := sound.no

/-- In the false outcome nothing is sure, and what was possible is possible. -/
theorem continueInFalse : Accrues allowed outer chain.continueInFalse.record := by
  have exits : chain.no.exits = .none := congrArg ExitRecord.exits sound.no
  have possible : chain.no.possible = .none := congrArg ExitRecord.possible sound.no
  have entered : chain.continueInFalse.record =
      ⟨chain.no.exits, chain.no.possible ∪ outer.possible⟩ := by
    rw [← sound.here]
    rfl
  rw [entered, exits, possible]
  exact {
    kept := Exits.le_union_right _ _
    bounded := Exits.union_le (Exits.none_le _) (Exits.le_union_left _ _)
    sound := fun _ => Exits.none_le _ }

theorem closed (before : Walk) :
    Accrues allowed before.record ((before.mapBlock fun block =>
      (block.propagate chain.branches chain.links).merge chain.branches chain.links).dropMarkers
        chain.markers).record := by
  rw [Walk.record_dropMarkers]
  exact accrues_propagate sound.branches chain.links before.block

theorem close (continuesInFalse : Bool) :
    Accrues allowed outer (chain.close continuesInFalse).record := by
  cases continuesInFalse with
  | false => exact sound.here ▸ sound.closed chain.walk
  | true => exact sound.continueInFalse.trans (sound.closed chain.continueInFalse)

end Sound

end Chain

theorem accrues_closeCases {cases : Cases} (walked : ∀ branch ∈ cases.branches, branch.Walked allowed) :
    Accrues allowed cases.walk.record cases.close.record :=
  .join _ _ _ Exits.le_foldl (foldl_possible_le walked _)
    (foldl_exits_le walked (fun _ => Exits.diff_le _ _) (Exits.none_le _))

/-- The clauses of a `try` so far, when the record of the block around it is `outer`. -/
structure Catches.Sound (allowed : Exits) (outer : ExitRecord) (catches : Catches) : Prop where
  here : catches.walk.record = outer
  branches : ∀ branch ∈ catches.branches, branch.Walked allowed

theorem Catches.Sound.push {outer : ExitRecord} {catches : Catches}
    (sound : catches.Sound allowed outer) {branch : Block} (walked : branch.Walked allowed)
    {walk : Walk} (same : walk.record = outer) : (catches.push branch walk).Sound allowed outer where
  here := same
  branches := walked_append sound.branches walked

theorem accrues_closeTry {tried : Block} (walked : tried.Walked allowed) {catches : Catches}
    (others : ∀ branch ∈ catches.branches, branch.Walked allowed) :
    Accrues allowed catches.walk.record (closeTry tried catches).record := by
  let collected := catches.branches.foldl (fun exits (branch : Block) => exits ∪ branch.possible)
    catches.walk.block.possible
  refine .join _ (collected ∪ tried.possible) _
    (Exits.le_trans Exits.le_foldl (Exits.le_union_left _ _))
    (Exits.union_le (foldl_possible_le others _)
      (Exits.le_trans walked.possible_le (Exits.le_union_right _ _))) ?_
  refine Exits.foldl_le (Exits.le_trans walked.exits_le (Exits.le_union_right _ _)) ?_
  intro branch member
  have possible : branch.possible ≤ collected := Exits.le_foldl_of_mem member
  exact Exits.le_trans (others branch member).exits_le
    (Exits.le_trans possible (Exits.le_union_left _ _))

/-- The exit of the last clause replaces others, which stay possible. -/
theorem accrues_closeFinally {finished : Block} (walked : finished.Walked allowed) (walk : Walk) :
    Accrues allowed walk.record (closeFinally finished walk).record where
  kept := Exits.le_union_left _ _
  bounded := Exits.union_le (Exits.le_union_left _ _)
    (Exits.le_trans walked.possible_le (Exits.le_union_right _ _))
  sound sound := by
    show (if finished.continues then _ else _) ≤ walk.block.possible ∪ finished.possible
    split
    · exact Exits.le_trans sound (Exits.le_union_left _ _)
    · exact Exits.le_trans walked.exits_le (Exits.le_union_right _ _)

/-! ### Steps that leave the record alone -/

/-- A closure is walked from a block of its own. -/
theorem record_startClosure (env : Env) (scope : Scope) (params : List ParamInfo)
    (captures : List Capture) (report : Report) :
    (startClosure env scope params captures report).record = .fresh := by
  have started : (startBody scope params report).record = .fresh :=
    Walk.record_foldl _ (fun walk (param : ParamInfo) => walk.record_share param.name) _
  refine (Walk.record_foldl _ (fun walk (captured : Capture) => ?_) captures).trans started
  split
  · exact walk.record_share captured.name
  · exact walk.record_track env captured.name captured.span

/-- The blocks of both outcomes of a condition start anew. -/
theorem record_no (env : Env) (test : Expr) (walk : Walk) (markers : List String) (block : Block) :
    ((walkTest env false false test (.start walk markers)).split block).no.record = .fresh :=
  record_otherwise_test env false false test (.start walk markers)

/-! ### Expressions -/

section

variable {span : Span} {walk : Walk}

theorem spans_assign {target value : Expr} (op : AssignOp) (byRef : Bool)
    (valued : walk.Spans allowed (walkExpr env value walk) (historyExpr env value walk))
    (shared : walk.Spans allowed (walkShared env value walk) (historyShared env value walk))
    (assigned : ∀ mode types (walk : Walk), walk.Spans allowed (walkAssign env mode types target walk)
      (historyAssign env mode types target walk)) :
    walk.Spans allowed (walkKind env span (.assign target value op byRef) walk)
      (historyKind env span (.assign target value op byRef) walk) := by
  cases byRef with
  | true =>
    rw [walkKind, if_pos rfl]
    exact shared.append (assigned _ _ _)
  | false =>
    cases op with
    | assign =>
      rw [walkKind]
      exact valued.append (assigned _ _ _)
    | _ =>
      rw [walkKind]
      exact valued.append (assigned _ _ _)

theorem spans_binary (op : BinaryOp) {left right : Expr}
    (first : walk.Spans allowed (walkExpr env left walk) (historyExpr env left walk))
    (probed : walk.Spans allowed (walkProbe env left walk) (historyProbe env left walk))
    (second : ∀ walk : Walk, walk.Spans allowed (walkExpr env right walk) (historyExpr env right walk)) :
    walk.Spans allowed (walkKind env span (.binary op left right) walk)
      (historyKind env span (.binary op left right) walk) := by
  rw [walkKind.eq_def]
  cases op with
  | coalesce => exact probed.append (second _).conditionally
  | and | or | lowOr => exact first.append (second _).conditionally
  | _ => exact first.append (second _)

/-- The arms of a conditional expression are walked in blocks of their own, and neither is sure. -/
theorem spans_ternary {test yes no : Expr}
    (tested : (Guard.start walk []).walk.Spans allowed
      (walkTest env false false test (.start walk [])).walk
      (historyTest env false false test (.start walk [])))
    (inYes : ∀ walk : Walk, walk.Spans allowed (walkExpr env yes walk) (historyExpr env yes walk))
    (inNo : ∀ walk : Walk, walk.Spans allowed (walkExpr env no walk) (historyExpr env no walk)) :
    walk.Spans allowed (walkKind env span (.ternary test (some yes) no) walk)
      (historyKind env span (.ternary test (some yes) no) walk) := by
  rw [walkKind]
  let split := (walkTest env false false test (.start walk [])).split walk.block
  let between := (split.walk.within split.yes (walkExpr env yes)).2
  have settle {first last : ExitRecord} {history : History}
      (spans : history.Spans allowed first last) :
      (history ++ History.stage ⟨.none, last.possible⟩).Spans allowed first ⟨.none, last.possible⟩ :=
    (spans.after (.weaken (Exits.none_le _))).append (.stage _)
  have inTrue : walk.Spans allowed walk _ :=
    (settle (tested.append (inYes { split.walk with block := split.yes }))).within
      walk.block.child rfl walk.record
  have inFalse : walk.Spans allowed walk _ :=
    (settle (inNo { between with block := split.no })).within split.no
      (record_no env test walk [] walk.block) walk.record
  exact (inTrue.append inFalse).to_eq (record_closeTernary ..)

theorem spans_call (admits : env.Admits allowed) (name : String) {args : List Arg}
    (compacted : walk.Spans allowed (walkCompactArgs env args walk) (historyCompactArgs env args walk))
    (passed : ∀ params (walk : Walk), walk.Spans allowed (walkArgs env params 0 args walk)
      (historyArgs env params 0 args walk)) :
    walk.Spans allowed (walkKind env span (.call name args) walk)
      (historyKind env span (.call name args) walk) := by
  rw [walkKind, historyKind_call]
  dsimp only
  split
  · exact compacted
  have tolerated := record_tolerate walk (globalName env name)
  generalize tolerate (globalName env name) walk = started at tolerated
  have entered (isPure : Bool) :
      (if isPure then started else started.impure).record = walk.record := by
    cases isPure <;> exact tolerated
  have inArgs := (passed ((callee? env name).map (·.params)) _).from_eq
    (entered ((callee? env name).any (·.isPure)))
  generalize walkArgs env _ 0 args _ = after, historyArgs env _ 0 args _ = history at inArgs ⊢
  have exits (exited : Walk) (left : Accrues allowed after.record exited.record) (fatal : Bool) :
      (history ++ .stage exited.record).Spans allowed walk.record
        (if fatal then exited.leave .byDie else exited).record := by
    refine ((inArgs.after left).append (.stage _)).after ?_
    split
    · rw [Walk.record_leave]
      exact .leave (Exits.le_trans (by decide) admits.own) _
    · exact .refl _
  cases found : callee? env name with
  | none => exact exits after (.refl _) _
  | some info => exact exits _ (accrues_leaveByCallee env (exits_le_of_callee? admits found) after) _

/-! ### Branching statements -/

/-- A block that may not run at all is joined. -/
theorem spans_mergeOptional (block : Block) (steps : Walk → Walk) {history : History}
    (start : block.record = .fresh)
    (spans : Walk.Spans allowed { walk with block } (steps { walk with block }) history) :
    walk.Spans allowed ((walk.within block steps).2.mapBlock
      (·.mergeOptional (walk.within block steps).1)) (.within block history) :=
  (spans.within block start walk.record).after (accrues_mergeOptional walk.block (spans.walked start))

/-- The branches of an `if` are joined, in the false outcome if control goes on there. -/
theorem Chain.Sound.spans_close {chain : Chain} {outer : ExitRecord}
    (sound : chain.Sound allowed outer) (continuesInFalse : Bool) :
    (historyFalse chain continuesInFalse).Spans allowed outer (chain.close continuesInFalse).record := by
  cases continuesInFalse with
  | false => exact .nothing (sound.close false)
  | true =>
    have closed := sound.closed chain.continueInFalse
    have entered : Accrues .all chain.no.record chain.continueInFalse.record := {
      kept := Exits.le_union_left _ _
      bounded := Exits.le_trans (Exits.le_all _) (Exits.le_union_right _ _)
      sound := fun start => Exits.le_trans start (Exits.le_union_left _ _) }
    have ofBlock := (((History.Spans.nothing entered).append (.stage _)).after closed.widen).append
      (.stage _)
    exact (((History.Spans.nothing sound.continueInFalse).append (.stage _)).append
      (ofBlock.within chain.no sound.no _)).after closed

theorem spans_branch {test : Expr} {body : List Stmt} {rest : Otherwise} {span : Span}
    (tested : ∀ guard : Guard, guard.walk.Spans allowed (walkTest env false false test guard).walk
      (historyTest env false false test guard))
    (inBody : ∀ walk : Walk, walk.Spans allowed (walkStmts env body walk) (historyStmts env body walk))
    (inOthers : ∀ chain : Chain, chain.Sound allowed walk.record →
      (walkOtherwise env walk.scope rest chain).Sound allowed walk.record ∧
        (historyOtherwise env walk.scope rest chain).Spans allowed walk.record walk.record) :
    walk.Spans allowed (walkStmtKind env (.branch test body span rest) walk)
      (historyStmtKind env (.branch test body span rest) walk) := by
  let split := (walkTest env false false test (.start walk [])).split walk.block
  have inTrue := (tested (.start walk [])).append (inBody { split.walk with block := split.yes })
  have start : (Chain.start split).Sound allowed walk.record :=
    ⟨rfl, by simp [Chain.start], record_no env test walk [] walk.block⟩
  obtain ⟨sound, others⟩ := inOthers _ (start.push walk.scope inTrue.toAccrues
    (show (split.walk.within split.yes (walkStmts env body)).2.record = walk.record from rfl))
  have whole (flag : Bool) := ((inTrue.within walk.block.child rfl walk.record).append
    others).append (sound.spans_close flag)
  rw [walkStmtKind.eq_def]
  exact whole _

theorem spans_foreach {subject value : Expr} {key : Option Expr} {byRef : Bool} {body : List Stmt}
    (subjected : walk.Spans allowed (walkExpr env subject walk) (historyExpr env subject walk))
    (valued : ∀ mode types (walk : Walk), walk.Spans allowed (walkAssign env mode types value walk)
      (historyAssign env mode types value walk))
    (keyed : ∀ walk : Walk, walk.Spans allowed (walkKey env key walk) (historyKey env key walk))
    (inBody : ∀ walk : Walk, walk.Spans allowed (walkStmts env body walk) (historyStmts env body walk)) :
    walk.Spans allowed (walkStmtKind env (.foreach subject key value byRef body) walk)
      (historyStmtKind env (.foreach subject key value byRef body) walk) := by
  rw [walkStmtKind]
  let walked := walkExpr env subject walk
  let entered : Walk := { walked with block := walked.block.child }
  let elements := (walked.localType env subject).element
  let bind (walk : Walk) :=
    walkAssign env (.iteration value.span) elements value (shareSlot byRef value walk)
  let enter (walk : Walk) := (walkKey env key (bind walk)).mapBlock fun block =>
    { block with insideLoop := true }
  have bound : entered.Spans allowed (bind entered) _ :=
    (valued (.iteration value.span) elements (shareSlot byRef value entered)).from_eq
      (record_shareSlot entered byRef value)
  have whole := (bound.append (keyed (bind entered))).append (inBody (enter entered))
  have joined : walked.Spans allowed _ _ :=
    spans_mergeOptional walked.block.child (fun walk => walkStmts env body (enter walk)) rfl whole
  exact (subjected.append joined).to_eq (record_checkForeachKey env key value _)

/-- The block in which a clause of a `try` starts. -/
theorem record_afterThrow (block body : Block) : (afterThrow block body).record = .fresh :=
  List.foldlRecOn body.scope.entries _ (motive := fun after : Block => after.record = .fresh) rfl
    fun _ fresh _ _ => fresh

/-- The last clause starts from the same block as the others, and what it reports is no exit. -/
theorem record_closeTry (tried : Block) (catches : Catches) {walk : Walk}
    (same : walk.block = catches.walk.block) :
    (closeTry tried { catches with walk }).record = (closeTry tried catches).record := by
  unfold closeTry Walk.mapBlock Walk.record
  rw [same]

theorem accrues_finish {finished : Block} (ended : finished.Walked allowed) (body : List Stmt)
    (tried : Block) (bodies : List (List Stmt × Block)) (last : List Stmt) (span : Span)
    {catches : Catches} {walk : Walk} (same : walk.block = catches.walk.block) :
    Accrues allowed (closeTry tried catches).record
      (closeFinally finished (closeTry tried { catches with
        walk := checkFinally env body tried bodies last span finished walk })).record := by
  rw [← record_closeTry tried catches ((block_checkFinally env body tried bodies last span finished
    walk).trans same)]
  exact accrues_closeFinally ended _

theorem spans_tryCatch {body : List Stmt} {catches : List Catch} {final : Option (List Stmt)}
    {span : Span}
    (inBody : ∀ walk : Walk, walk.Spans allowed (walkStmts env body walk) (historyStmts env body walk))
    (inCatches : ∀ {thrown : Block}, thrown.record = .fresh → ∀ before : Catches,
      before.Sound allowed walk.record →
        (walkCatches env thrown catches before).Sound allowed walk.record ∧
          (historyCatches env thrown catches before).Spans allowed walk.record walk.record)
    (inFinal : ∀ last ∈ final, ∀ walk : Walk, walk.Spans allowed (walkStmts env last walk)
      (historyStmts env last walk)) :
    walk.Spans allowed (walkStmtKind env (.tryCatch body catches final span) walk)
      (historyStmtKind env (.tryCatch body catches final span) walk) := by
  rw [walkStmtKind]
  let left := walk.within walk.block.child (walkStmts env body)
  let thrown := afterThrow left.2.block left.1
  let caught := walkCatches env thrown catches { walk := left.2 }
  have fresh : thrown.record = .fresh := record_afterThrow left.2.block left.1
  have inTried := inBody { walk with block := walk.block.child }
  obtain ⟨sound, clauses⟩ := inCatches fresh { walk := left.2 } ⟨rfl, fun _ member => by cases member⟩
  have closed : Accrues allowed walk.record (closeTry left.1 caught).record :=
    sound.here ▸ accrues_closeTry inTried.toAccrues sound.branches
  have before := ((inTried.within walk.block.child rfl walk.record).append
    (.unentered fresh _)).append clauses
  cases final with
  | none => exact ((before.append (.nothing (.refl _))).after closed).append (.stage _)
  | some last =>
    have inLast := inFinal last rfl { caught.walk with block := thrown.child }
    have joined := ((before.append (inLast.within thrown.child rfl _)).after closed).append
      (.stage _)
    exact joined.after (accrues_finish inLast.toAccrues body left.1 _ last span rfl)

/-- A case is walked with those that it falls through to; `break` and `continue` end only the case. -/
theorem spans_case (walk : Walk) {body : List Stmt} (span : Span) {rest : List Case}
    (inBody : ∀ walk : Walk, walk.Spans allowed (walkStmts env body walk) (historyStmts env body walk))
    (falls : ∀ walk : Walk, walk.Spans allowed (walkFallThrough env rest walk)
      (historyFallThrough env rest walk)) :
    let started : Walk := { walk with block := walk.block.child }
    let ended := checkCaseBreak env span rest (walkStmts env body started)
    let quiet : Walk := { ended with report := { ended.report with enabled := false } }
    let after := if ended.block.continues then ended.silently (walkFallThrough env rest) else ended
    after.block.Walked allowed ∧ (History.within walk.block.child (historyStmts env body started ++
      (if ended.block.continues then historyFallThrough env rest quiet else .nothing) ++
      .stage ⟨caseExits after.block, after.block.possible⟩)).Spans allowed walk.record walk.record := by
  intro started ended quiet after
  have inCase : started.Spans allowed after (historyStmts env body started ++
      if ended.block.continues then historyFallThrough env rest quiet else .nothing) := by
    have same : ended.record = (walkStmts env body started).record :=
      congrArg Block.record (block_checkCaseBreak env span rest _)
    refine ((inBody started).to_eq same).append ?_
    unfold after
    split
    · exact falls quiet
    · exact .nothing (.refl _)
  exact ⟨inCase.toAccrues, ((inCase.after (.weaken (Exits.diff_le _ _))).append (.stage _)).within
    walk.block.child rfl _⟩

end

/-- Any expression, and any statement but `return`. -/
def anyExpr (_ : Expr) : Bool :=
  true

def noReturn (_ : Bool) : StmtKind → Bool
  | .returns _ => false
  | _ => true

-- Closures and arrow functions are walked in an environment of their own, with every exit allowed. The
-- history is computed along with the walk, so it is another for each part.
mutual

theorem spans_expr {env : Env} {allowed : Exits} (admits : env.Admits allowed)
    (value : Expr) (walk : Walk) :
    walk.Spans allowed (walkExpr env value walk) (historyExpr env value walk) := by
  obtain ⟨kind, span⟩ := value
  rw [walkExpr]
  exact (spans_kind admits span kind walk).around

theorem spans_kind {env : Env} {allowed : Exits} (admits : env.Admits allowed)
    (span : Span) (kind : ExprKind) (walk : Walk) :
    walk.Spans allowed (walkKind env span kind walk) (historyKind env span kind walk) := by
  cases kind
  case assign target value op byRef =>
    exact spans_assign op byRef (spans_expr admits value walk) (spans_shared admits value walk)
      fun mode types => spans_assignTo admits mode types target
  case binary op left right =>
    exact spans_binary op (spans_expr admits left walk) (spans_probe admits left walk)
      (spans_expr admits right)
  case ternary test yes no =>
    cases yes with
    | none =>
      rw [walkKind]
      exact (spans_expr admits test walk).append (spans_expr admits no _).conditionally
    | some yes =>
      exact spans_ternary (spans_test admits false false test _) (spans_expr admits yes)
        (spans_expr admits no)
  case call name args =>
    exact spans_call admits name (spans_compactArgs admits args walk)
      fun params => spans_args admits params 0 args
  case closure params captures hint isStatic body =>
    rw [walkKind]
    let inner : Env := { env with enclosing := [] }
    exact ((spans_stmts inner.admits_all false body (.inl rfl) _).within _
      (record_startClosure ..) walk.record).to_eq (record_captures env captures (walk, _))
  case arrow params hint isStatic body =>
    rw [walkKind]
    let inner : Env := { env with enclosing := walk.scope :: env.enclosing }
    exact ((spans_expr inner.admits_all body _).within _ rfl walk.record).to_eq
      (record_untrackAll env _ _)
  all_goals rw [walkKind]
  case var name => exact .of_eq (walk.record_read env name span)
  case dynamicVar reads | interpolated reads | unmodeled reads =>
    exact .of_eq (walk.record_readAll env reads span)
  case print reads => exact .of_eq (Walk.record_readAll env _ reads span)
  case exit die reads =>
    rw [Walk.Spans, Walk.record_leave, Walk.record_readAll]
    exact .nothing (.leave (Exits.le_trans (by decide) admits.own) _)
  case paren inner | clone inner | unary _ inner | property inner _ _ =>
    exact spans_expr admits inner walk
  case includeFile inner | yieldFrom inner => exact spans_expr admits inner walk.impure
  case throw inner =>
    rw [Walk.Spans, Walk.record_leave]
    exact (spans_expr admits inner walk).after (.leave (Exits.le_trans (by decide) admits.own) _)
  case isEmpty inner => exact spans_probe admits inner walk
  case isset values => exact spans_probes admits values walk
  case array items | list items => exact spans_items admits items walk
  case element base index =>
    exact ((spans_expr admits base _).append (spans_optional admits index _)).from_eq
      (walk.record_checkArrayAccess env base span)
  case instanceOf subject ref => exact (spans_expr admits subject walk).append (spans_ref admits ref _)
  case callValue function args =>
    exact (spans_expr admits function walk.impure).append (spans_args admits none 0 args _)
  case methodCall object method args nullsafe =>
    exact ((spans_expr admits object walk.impure).append (spans_args admits _ 0 args _)).after
      (accrues_leaveByFound env (exits_le_of_lookupMethodOf? admits _ object method) _)
  case staticCall ref method args =>
    exact ((spans_ref admits ref walk.impure).append (spans_args admits _ 0 args _)).after
      (accrues_leaveByFound env (exits_le_of_staticCallee? admits ref method) _)
  case new ref args => exact (spans_ref admits ref walk.impure).append (spans_args admits _ 0 args _)
  case staticProperty ref name | classConstant ref name => exact spans_ref admits ref walk
  case matchOn subject arms => exact (spans_expr admits subject walk).append (spans_arms admits arms _)
  case yield key value =>
    exact (spans_optional admits key walk.impure).append (spans_optional admits value _)
  case integer | float | string | boolean | null | magic | constant => exact .of_eq rfl

theorem spans_exprs {env : Env} {allowed : Exits} (admits : env.Admits allowed)
    (values : List Expr) (walk : Walk) :
    walk.Spans allowed (walkExprs env values walk) (historyExprs env values walk) := by
  cases values with
  | nil => exact .of_eq rfl
  | cons value rest =>
    rw [walkExprs]
    exact (spans_expr admits value walk).append (spans_exprs admits rest _)

theorem spans_optional {env : Env} {allowed : Exits} (admits : env.Admits allowed)
    (value : Option Expr) (walk : Walk) :
    walk.Spans allowed (walkOptional env value walk) (historyOptional env value walk) := by
  cases value with
  | none => exact .of_eq rfl
  | some value =>
    rw [walkOptional]
    exact spans_expr admits value walk

theorem spans_conditionals {env : Env} {allowed : Exits} (admits : env.Admits allowed)
    (values : List Expr) (walk : Walk) :
    walk.Spans allowed (walkConditionals env values walk) (historyConditionals env values walk) := by
  cases values with
  | nil => exact .of_eq rfl
  | cons value rest =>
    rw [walkConditionals]
    exact (spans_expr admits value walk).conditionally.append (spans_conditionals admits rest _)

theorem spans_items {env : Env} {allowed : Exits} (admits : env.Admits allowed)
    (items : List Item) (walk : Walk) :
    walk.Spans allowed (walkItems env items walk) (historyItems env items walk) := by
  cases items with
  | nil => exact .of_eq rfl
  | cons item rest =>
    cases item with
    | skip =>
      rw [walkItems]
      exact spans_items admits rest walk
    | entry key value byRef unpack =>
      rw [walkItems]
      exact ((spans_optional admits key walk).append (spans_expr admits value _)).append
        (spans_items admits rest _)

theorem spans_ref {env : Env} {allowed : Exits} (admits : env.Admits allowed)
    (ref : ClassRef) (walk : Walk) :
    walk.Spans allowed (walkRef env ref walk) (historyRef env ref walk) := by
  cases ref with
  | dynamic value =>
    rw [walkRef]
    exact spans_expr admits value walk
  | named | self | static | parent => exact .of_eq rfl

theorem spans_arms {env : Env} {allowed : Exits} (admits : env.Admits allowed)
    (arms : List MatchArm) (walk : Walk) :
    walk.Spans allowed (walkArms env arms walk) (historyArms env arms walk) := by
  cases arms with
  | nil => exact .of_eq rfl
  | cons arm rest =>
    obtain ⟨conditions, body⟩ := arm
    rw [walkArms]
    exact ((spans_conditionals admits conditions walk).append
      (spans_expr admits body _).conditionally).append (spans_arms admits rest _)

theorem spans_probe {env : Env} {allowed : Exits} (admits : env.Admits allowed)
    (value : Expr) (walk : Walk) :
    walk.Spans allowed (walkProbe env value walk) (historyProbe env value walk) := by
  obtain ⟨kind, span⟩ := value
  rw [walkProbe.eq_def]
  have read := (spans_kind admits span kind walk).around
  cases kind with
  | paren inner => exact spans_probe admits inner walk
  | var name => exact .of_eq rfl
  | element base index => exact (spans_probe admits base walk).append (spans_optional admits index _)
  | property object _ _ => exact spans_probe admits object walk
  | _ => exact read

theorem spans_probes {env : Env} {allowed : Exits} (admits : env.Admits allowed)
    (values : List Expr) (walk : Walk) :
    walk.Spans allowed (walkProbes env values walk) (historyProbes env values walk) := by
  cases values with
  | nil => exact .of_eq rfl
  | cons value rest =>
    rw [walkProbes]
    exact (spans_probe admits value walk).append (spans_probes admits rest _)

theorem spans_assignTo {env : Env} {allowed : Exits} (admits : env.Admits allowed)
    (mode : AssignMode) (types : TypeSet)
    (target : Expr) (walk : Walk) : walk.Spans allowed (walkAssign env mode types target walk)
      (historyAssign env mode types target walk) := by
  obtain ⟨kind, span⟩ := target
  rw [walkAssign.eq_def]
  have read := (spans_kind admits span kind walk).around
  cases kind with
  | var name => exact .of_eq (record_assignVar env walk mode types name span)
  | paren inner => exact spans_assignTo admits mode types inner walk
  | element base index =>
    exact ((spans_store admits types base.span base _).append (spans_optional admits index _)).from_eq
      (walk.record_checkArrayAccess env base _)
  | list items | array items => exact spans_pattern admits types 0 items walk
  | property object name nullsafe =>
    exact (spans_expr admits object _).from_eq
      (record_assignOwnProperty env walk.impure types object name)
  | staticProperty ref name =>
    exact (spans_ref admits ref _).from_eq (record_assignOwnStatic env walk.impure types ref name)
  | _ => exact read

theorem spans_pattern {env : Env} {allowed : Exits} (admits : env.Admits allowed)
    (types : TypeSet) (position : Nat)
    (items : List Item) (walk : Walk) : walk.Spans allowed (walkPattern env types position items walk)
      (historyPattern env types position items walk) := by
  cases items with
  | nil => exact .of_eq rfl
  | cons item rest =>
    cases item with
    | skip =>
      rw [walkPattern]
      exact spans_pattern admits types position rest walk
    | entry key value byRef unpack =>
      rw [walkPattern]
      have keyed := (spans_optional admits key walk).to_eq
        (record_shareSlot (walkOptional env key walk) byRef value)
      exact (keyed.append (spans_assignTo admits _ _ value _)).append
        (spans_pattern admits types (position + 1) rest _)

theorem spans_store {env : Env} {allowed : Exits} (admits : env.Admits allowed)
    (types : TypeSet) (outer : Span) (base : Expr)
    (walk : Walk) : walk.Spans allowed (walkStore env types outer base walk)
      (historyStore env types outer base walk) := by
  obtain ⟨kind, span⟩ := base
  rw [walkStore.eq_def]
  have read (walk : Walk) := (spans_kind admits span kind walk).around
  cases kind with
  | paren inner => exact spans_store admits types outer inner walk
  | var name => exact .of_eq (record_storeInVar env walk types name outer)
  | element base index =>
    exact ((spans_store admits types.inArray base.span base _).append
      (spans_optional admits index _)).from_eq (walk.record_checkArrayAccess env base outer)
  | property | staticProperty => exact read walk.impure
  | _ => exact read walk

theorem spans_shared {env : Env} {allowed : Exits} (admits : env.Admits allowed)
    (value : Expr) (walk : Walk) :
    walk.Spans allowed (walkShared env value walk) (historyShared env value walk) := by
  obtain ⟨kind, span⟩ := value
  rw [walkShared.eq_def]
  have read := (spans_kind admits span kind walk).around
  cases kind with
  | paren inner => exact spans_shared admits inner walk
  | var name => exact .of_eq (record_shareVar env walk name)
  | _ => exact read

theorem spans_args {env : Env} {allowed : Exits} (admits : env.Admits allowed)
    (params : Option (List ParamInfo)) (position : Nat)
    (args : List Arg) (walk : Walk) : walk.Spans allowed (walkArgs env params position args walk)
      (historyArgs env params position args walk) := by
  cases args with
  | nil => exact .of_eq rfl
  | cons arg rest =>
    obtain ⟨value, unpack, label⟩ := arg
    rw [walkArgs, historyArgs_cons]
    cases refParam? params position with
    | some param =>
      exact (spans_passed admits param value.span value walk).append
        (spans_args admits params (position + 1) rest _)
    | none =>
      exact (spans_expr admits value walk).append (spans_args admits params (position + 1) rest _)

theorem spans_passed {env : Env} {allowed : Exits} (admits : env.Admits allowed)
    (param : ParamInfo) (outer : Span) (value : Expr)
    (walk : Walk) : walk.Spans allowed (walkPassed env param outer value walk)
      (historyPassed env param outer value walk) := by
  obtain ⟨kind, span⟩ := value
  rw [walkPassed.eq_def]
  have read := (spans_kind admits span kind walk).around
  cases kind with
  | paren inner => exact spans_passed admits param outer inner walk
  | var name => exact .of_eq rfl
  | element base index =>
    exact ((spans_store admits .mixed base.span base _).append (spans_optional admits index _)).from_eq
      (walk.record_checkArrayAccess env base outer)
  | _ => exact read

theorem spans_compactArgs {env : Env} {allowed : Exits} (admits : env.Admits allowed)
    (args : List Arg) (walk : Walk) :
    walk.Spans allowed (walkCompactArgs env args walk) (historyCompactArgs env args walk) := by
  cases args with
  | nil => exact .of_eq rfl
  | cons arg rest =>
    obtain ⟨value, unpack, label⟩ := arg
    rw [walkCompactArgs]
    exact (spans_compact admits value.span value walk).append (spans_compactArgs admits rest _)

theorem spans_compact {env : Env} {allowed : Exits} (admits : env.Admits allowed)
    (outer : Span) (value : Expr) (walk : Walk) :
    walk.Spans allowed (walkCompact env outer value walk) (historyCompact env outer value walk) := by
  obtain ⟨kind, span⟩ := value
  rw [walkCompact.eq_def]
  have read := (spans_kind admits span kind walk).around
  cases kind with
  | paren inner => exact spans_compact admits outer inner walk
  | string text =>
    cases text with
    | none => exact read
    | some name => exact .of_eq (walk.record_read env ("$" ++ name) outer)
  | array items => exact spans_compactItems admits items walk
  | _ => exact read

theorem spans_compactItems {env : Env} {allowed : Exits} (admits : env.Admits allowed)
    (items : List Item) (walk : Walk) :
    walk.Spans allowed (walkCompactItems env items walk) (historyCompactItems env items walk) := by
  cases items with
  | nil => exact .of_eq rfl
  | cons item rest =>
    cases item with
    | skip =>
      rw [walkCompactItems]
      exact spans_compactItems admits rest walk
    | entry key value byRef unpack =>
      rw [walkCompactItems]
      exact (spans_compact admits value.span value walk).append (spans_compactItems admits rest _)

theorem spans_test {env : Env} {allowed : Exits} (admits : env.Admits allowed)
    (negated inLogic : Bool) (test : Expr) (guard : Guard) :
    guard.walk.Spans allowed (walkTest env negated inLogic test guard).walk
      (historyTest env negated inLogic test guard) := by
  obtain ⟨kind, span⟩ := test
  rw [historyTest.eq_def]
  dsimp only
  refine History.Spans.around ?_
  rw [walkTest.eq_def]
  dsimp only
  have read := spans_kind admits span kind guard.walk
  generalize walkKind env span kind = steps, historyKind env span kind = seen at read ⊢
  cases kind with
  | paren inner => exact spans_test admits negated inLogic inner guard
  | binary op left right =>
    cases op with
    | and | or =>
      exact (spans_test admits negated true left guard).append
        (spans_test admits negated true right _).restore
    | _ => exact read
  | unary op operand =>
    cases op with
    | not =>
      exact (spans_test admits (!negated) inLogic operand _).from_eq
        (guard.record_markNotEmpty negated operand)
    | _ => exact read
  | isset values =>
    exact (spans_probes admits values _).from_eq (guard.record_markIsset negated values)
  | instanceOf subject ref =>
    exact ((spans_expr admits subject guard.walk).append (spans_ref admits ref _)).to_eq
      (Guard.record_narrowTo _ env.naming subject ref negated inLogic)
  | _ => exact read

theorem spans_stmts {env : Env} {allowed : Exits} (admits : env.Admits allowed) (inLoop : Bool)
    (body : List Stmt)
    (permitted : allowed.returns = true ∨ everyStmt anyExpr noReturn inLoop body = true) (walk : Walk) :
    walk.Spans allowed (walkStmts env body walk) (historyStmts env body walk) := by
  cases body with
  | nil => exact .of_eq rfl
  | cons stmt rest =>
    obtain ⟨kind, span⟩ := stmt
    simp only [everyStmt, Bool.and_eq_true, or_and_left] at permitted
    obtain ⟨⟨own, parts⟩, others⟩ := permitted
    rw [walkStmts]
    have whole := (spans_stmtKind admits kind own parts (walk.checkDeadCode env ⟨kind, span⟩)).from_eq
      (record_checkDeadCode env ⟨kind, span⟩ walk)
    exact (History.Spans.around whole).append (spans_stmts admits _ rest others _)

theorem spans_stmtKind {env : Env} {allowed : Exits} (admits : env.Admits allowed) {inLoop : Bool}
    (kind : StmtKind) (own : allowed.returns = true ∨ noReturn inLoop kind = true)
    (parts : allowed.returns = true ∨ everyPart anyExpr noReturn inLoop kind = true) (walk : Walk) :
    walk.Spans allowed (walkStmtKind env kind walk) (historyStmtKind env kind walk) := by
  cases kind
  case returns value =>
    have permitted : Exits.byReturn ≤ allowed := by
      simpa [Exits.le_iff, Exits.byReturn, noReturn] using own
    cases value with
    | none =>
      rw [walkStmtKind, Walk.Spans, Walk.record_leave]
      exact .nothing (.leave permitted _)
    | some value =>
      rw [walkStmtKind, Walk.Spans, Walk.record_leave]
      exact (spans_expr admits value walk).after (.leave permitted _)
  case branch test body span rest =>
    simp only [everyPart, Bool.and_eq_true, or_and_left] at parts
    exact spans_branch (spans_test admits false false test) (spans_stmts admits _ body parts.1.2)
      fun chain => spans_otherwise admits walk.scope rest parts.2 chain
  case «foreach» subject key value byRef body =>
    simp only [everyPart, Bool.and_eq_true, or_and_left] at parts
    exact spans_foreach (spans_expr admits subject walk)
      (fun mode types => spans_assignTo admits mode types value) (spans_key admits key)
      (spans_stmts admits _ body parts.2)
  case tryCatch body catches final span =>
    simp only [everyPart, Bool.and_eq_true, or_and_left] at parts
    refine spans_tryCatch (spans_stmts admits _ body parts.1.1)
      (fun start => spans_catches admits start catches parts.1.2) ?_
    cases final with
    | none => nofun
    | some last =>
      have inLast := spans_stmts admits _ last parts.2
      exact fun other given => Option.some.inj given ▸ inLast
  all_goals rw [walkStmtKind]
  case expr value => exact spans_expr admits value walk
  case echo values => exact spans_exprs admits values walk.impure
  case breaks =>
    rw [Walk.Spans, Walk.record_leave]
    exact .nothing (.leave (Exits.le_trans (by decide) admits.own) _)
  case continues =>
    rw [Walk.Spans, Walk.record_leave]
    exact .nothing (.leave (Exits.le_trans (by decide) admits.own) _)
  case block body => exact spans_stmts admits _ body parts walk
  case whileLoop test body =>
    simp only [everyPart, Bool.and_eq_true, or_and_left] at parts
    exact (spans_expr admits test walk).append (spans_mergeOptional _ _ rfl
      (spans_stmts admits _ body parts.2 _))
  case doWhile body test =>
    simp only [everyPart, Bool.and_eq_true, or_and_left] at parts
    let entered := walk.mapBlock fun block => { block with insideLoop := true }
    exact ((spans_stmts admits _ body parts.1 entered).append (spans_expr admits test _)).after
      (.weaken (Exits.diff_le _ _))
  case forLoop init test step body =>
    simp only [everyPart, Bool.and_eq_true, or_and_left] at parts
    exact (((spans_exprs admits init walk).append (spans_exprs admits test _)).append
      (spans_exprs admits step _)).append (spans_mergeOptional _ _ rfl
        (spans_stmts admits _ body parts.2 _))
  case switch subject cases =>
    simp only [everyPart, Bool.and_eq_true, or_and_left] at parts
    have inCases := spans_cases admits cases parts.2 { walk := walkExpr env subject walk } (by simp)
    exact (spans_expr admits subject walk).append (inCases.1.after (accrues_closeCases inCases.2))
  case static bindings => exact spans_statics admits bindings walk.impure
  case constants items => exact spans_constItems admits items walk
  case global names =>
    refine .of_eq (Walk.record_foldl walk.impure (fun walk name => ?_) names)
    rfl
  case unset names =>
    refine .of_eq (Walk.record_foldl walk (fun walk name => ?_) names)
    rfl
  all_goals exact .of_eq rfl

theorem spans_key {env : Env} {allowed : Exits} (admits : env.Admits allowed) (key : Option Expr)
    (walk : Walk) : walk.Spans allowed (walkKey env key walk) (historyKey env key walk) := by
  cases key with
  | none => exact .of_eq rfl
  | some key =>
    rw [walkKey]
    exact spans_assignTo admits (.iteration key.span) keyTypes key walk

theorem spans_otherwise {env : Env} {allowed : Exits} (admits : env.Admits allowed) {inLoop : Bool}
    (initial : Scope) (rest : Otherwise)
    (parts : allowed.returns = true ∨ everyOtherwise anyExpr noReturn inLoop rest = true)
    (chain : Chain) {outer : ExitRecord} (sound : chain.Sound allowed outer) :
    (walkOtherwise env initial rest chain).Sound allowed outer ∧
      (historyOtherwise env initial rest chain).Spans allowed outer outer := by
  cases rest with
  | nothing =>
    rw [walkOtherwise_nothing]
    exact ⟨⟨sound.here, sound.branches, sound.no⟩, .unentered sound.no outer⟩
  | orElse body =>
    rw [walkOtherwise]
    have inBody := spans_stmts admits _ body parts { chain.walk with block := chain.no }
    exact ⟨sound.push initial (inBody.walked sound.no) sound.here, inBody.within chain.no sound.no outer⟩
  | orIf test body span rest =>
    simp only [everyOtherwise, Bool.and_eq_true, or_and_left] at parts
    obtain ⟨⟨-, parts⟩, others⟩ := parts
    rw [walkOtherwise]
    let inner : Walk := { chain.walk with block := chain.no }
    let split := (walkTest env false false test (.start inner chain.markers)).split chain.no
    let walk : Walk := { split.walk with block := chain.walk.block }
    have inTrue := (spans_test admits false false test (.start inner chain.markers)).append
      (spans_stmts admits _ body parts { walk with block := split.yes })
    have tested :
        ({ chain with markers := split.markers, no := split.no } : Chain).Sound allowed outer :=
      ⟨sound.here, sound.branches, record_no env test inner chain.markers chain.no⟩
    have inOthers := spans_otherwise admits initial rest others _
      (tested.push initial inTrue.toAccrues
        (show (walk.within split.yes (walkStmts env body)).2.record = outer from sound.here))
    exact ⟨inOthers.1, ((History.Spans.unentered sound.no outer).append
      (inTrue.within chain.no.child rfl outer)).append inOthers.2⟩

theorem spans_cases {env : Env} {allowed : Exits} (admits : env.Admits allowed) (list : List Case)
    (parts : allowed.returns = true ∨ everyCase anyExpr noReturn list = true) (cases : Cases)
    (walked : ∀ branch ∈ cases.branches, branch.Walked allowed) :
    cases.walk.Spans allowed (walkCases env list cases).walk (historyCases env list cases) ∧
      ∀ branch ∈ (walkCases env list cases).branches, branch.Walked allowed := by
  cases list with
  | nil =>
    rw [walkCases_nil]
    exact ⟨.of_eq rfl, walked⟩
  | cons first rest =>
    obtain ⟨test, body, span, gap⟩ := first
    simp only [everyCase, Bool.and_eq_true, or_and_left] at parts
    obtain ⟨⟨-, parts⟩, others⟩ := parts
    rw [walkCases, historyCases]
    have tested := spans_optional admits test cases.walk
    generalize walkOptional env test cases.walk = walk at tested ⊢
    dsimp only
    split
    · have inOthers := spans_cases admits rest others
        { cases with walk, hasDefault := cases.hasDefault || test.isNone } walked
      exact ⟨tested.append inOthers.1, inOthers.2⟩
    obtain ⟨ended, inCase⟩ := spans_case walk span (spans_stmts admits _ body parts)
      (spans_fallThrough admits rest others)
    let entered : Cases := { cases with walk, hasDefault := cases.hasDefault || test.isNone }
    let left := walk.within walk.block.child fun walk =>
      let walk := checkCaseBreak env span rest (walkStmts env body walk)
      if walk.block.continues then walk.silently (walkFallThrough env rest) else walk
    have inOthers := spans_cases admits rest others (entered.push left.1 left.2)
      (walked_append walked ended)
    exact ⟨tested.append (inCase.append (inOthers.1.from_eq rfl)), inOthers.2⟩

theorem spans_fallThrough {env : Env} {allowed : Exits} (admits : env.Admits allowed)
    (list : List Case) (parts : allowed.returns = true ∨ everyCase anyExpr noReturn list = true)
    (walk : Walk) :
    walk.Spans allowed (walkFallThrough env list walk) (historyFallThrough env list walk) := by
  cases list with
  | nil => exact .of_eq rfl
  | cons first rest =>
    obtain ⟨test, body, span, gap⟩ := first
    simp only [everyCase, Bool.and_eq_true, or_and_left] at parts
    obtain ⟨⟨-, parts⟩, others⟩ := parts
    rw [walkFallThrough, historyFallThrough_cons]
    refine (spans_stmts admits _ body parts walk).append ?_
    split
    · exact spans_fallThrough admits rest others _
    · exact .of_eq rfl

theorem spans_catches {env : Env} {allowed : Exits} (admits : env.Admits allowed) {inLoop : Bool}
    {outer : ExitRecord} {thrown : Block} (start : thrown.record = .fresh) (list : List Catch)
    (parts : allowed.returns = true ∨ everyCatch anyExpr noReturn inLoop list = true)
    (catches : Catches) (sound : catches.Sound allowed outer) :
    (walkCatches env thrown list catches).Sound allowed outer ∧
      (historyCatches env thrown list catches).Spans allowed outer outer := by
  cases list with
  | nil =>
    rw [walkCatches_nil]
    exact ⟨sound, .of_eq rfl⟩
  | cons first rest =>
    obtain ⟨types, name, body, span⟩ := first
    simp only [everyCatch, Bool.and_eq_true, or_and_left] at parts
    rw [walkCatches]
    have inBody := (spans_stmts admits _ body parts.1
      (bindCaught env types name { catches.walk with block := thrown.child })).from_eq
        (record_bindCaught env types name _)
    have inOthers := spans_catches admits start rest parts.2 _
      (sound.push inBody.toAccrues (show (catches.walk.within thrown.child fun walk =>
        walkStmts env body (bindCaught env types name walk)).2.record = outer from sound.here))
    exact ⟨inOthers.1, (inBody.within thrown.child rfl outer).append inOthers.2⟩

theorem spans_statics {env : Env} {allowed : Exits} (admits : env.Admits allowed)
    (bindings : List Binding) (walk : Walk) :
    walk.Spans allowed (walkStatics env bindings walk) (historyStatics env bindings walk) := by
  cases bindings with
  | nil => exact .of_eq rfl
  | cons binding rest =>
    obtain ⟨name, value, span⟩ := binding
    rw [walkStatics]
    exact (spans_optional admits value walk).append ((spans_statics admits rest _).from_eq rfl)

theorem spans_constItems {env : Env} {allowed : Exits} (admits : env.Admits allowed)
    (items : List ConstItem) (walk : Walk) :
    walk.Spans allowed (walkConstItems env items walk) (historyConstItems env items walk) := by
  cases items with
  | nil => exact .of_eq rfl
  | cons item rest =>
    obtain ⟨name, value, span⟩ := item
    rw [walkConstItems]
    exact (spans_expr admits value walk).append (spans_constItems admits rest _)

end

/-! ### Whole walks -/

/--
In the block at hand and in every other, at every point of a walk, the exits that are sure are possible,
and those that are possible at a later point include those that are at an earlier one. Among the points
are all between the statements.
-/
theorem sure_exits_possible (env : Env) (body : List Stmt) (walk : Walk)
    (included : walk.block.exits ≤ walk.block.possible) :
    let history := historyStmts env body walk
    let points := walk.record :: history.here ++ [(walkStmts env body walk).record]
    (∀ before after, body = before ++ after → (walkStmts env before walk).record ∈ points) ∧
      Coherent points ∧ ∀ branch ∈ history.branches, Coherent branch := by
  have spans := spans_stmts env.admits_all false body (.inl rfl) walk
  refine ⟨?_, spans.coherent included, spans.branches⟩
  rintro before after rfl
  exact record_mem_historyStmts env before after walk

/--
`do { if ($a) break; } while ($b);`, then `$a && exit;`, then `$b ? exit : $a;`, then
`if (!($x instanceof C)) return;`, and then `try { throw $x; } finally { return; }`
-/
def branchingBody : List Stmt :=
  let expr (kind : ExprKind) : Expr := ⟨kind, ⟨0, 1⟩⟩
  let var (name : String) : Expr := expr (.var name)
  let stmt (kind : StmtKind) : Stmt := ⟨kind, ⟨0, 1⟩⟩
  let guard := expr (.unary .not (expr (.paren (expr (.instanceOf (var "$x") (.named "\\C"))))))
  [stmt (.doWhile [stmt (.branch (var "$a") [stmt .breaks] ⟨0, 1⟩ .nothing)] (var "$b")),
    stmt (.expr (expr (.binary .and (var "$a") (expr (.exit false []))))),
    stmt (.expr (expr (.ternary (var "$b") (some (expr (.exit false []))) (var "$a")))),
    stmt (.branch guard [stmt (.returns none)] ⟨0, 1⟩ .nothing),
    stmt (.tryCatch [stmt (.expr (expr (.throw (var "$x"))))] [] (some [stmt (.returns none)]) ⟨0, 1⟩)]

/-- Of the exits of a loop, an operand, an arm, a guard and a last clause only that of the clause is sure. -/
theorem sure_exits_possible_branchingBody :
    let walk := Walk.start .empty { enabled := true }
    let history := historyStmts default branchingBody walk
    (walkStmts default branchingBody walk).block.exits = .byReturn ∧
      (walkStmts default (branchingBody.take 1) walk).record ∈ walk.record :: history.here ++
        [(walkStmts default branchingBody walk).record] ∧
      Coherent (walk.record :: history.here ++ [(walkStmts default branchingBody walk).record]) ∧
      ∀ branch ∈ history.branches, Coherent branch := by
  intro walk history
  obtain ⟨noted, coherent, branches⟩ := sure_exits_possible default branchingBody walk (by decide)
  exact ⟨by decide +kernel, noted _ _ (List.take_append_drop 1 branchingBody).symm, coherent, branches⟩

end Flow

end PhpAudit
