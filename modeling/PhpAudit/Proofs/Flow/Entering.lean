/-
This file says what a `switch` offers to the code after it, and what its cases know. The tests are
walked in order in the block around the cases, and each body in a block of its own, which starts with
what the tests up to it store. A run may make more tests before it comes to a body, but only if the
body is that of the default case, or one after it; those tests stand behind the default case and are
walked later. A run may also fall into a body from the one before it, which the walk over that body
does not take into account. And what a body stores is offered if its block goes on after the `switch`.
-/

import PhpAudit.Proofs.Flow.Offering

namespace PhpAudit

open Execution

namespace Warns

variable {source : Source} {name : String} {place : Span} {visits others : List Visit}
  {left right : Runs Leave} {known : Prop} {first second third : Walk}

/-- Code that is walked but does not run. -/
theorem unrun (among : second.Raised source name place → ¬ first.Raised source name place →
    Among visits source name place) :
    Warns source name place visits ∅ known first second where
  shown := .silent fun _ none => none.elim
  among := among
  spares _ _ _ none := none.elim
  shuns _ _ _ _ none := none.elim

/-- Code that is walked first, but not among the code that runs. -/
theorem skip (clear : Clear (visits ++ others) source name place)
    (among : second.Raised source name place → ¬ first.Raised source name place →
      Among visits source name place)
    (warns : Warns source name place others right known second third) :
    Warns source name place (visits ++ others) right known first third := by
  have both := (unrun among).union clear warns
  rwa [Set.empty_union] at both

/-- Either of two ways through the same code. -/
theorem or (warnsLeft : Warns source name place visits left known first second)
    (warnsRight : Warns source name place visits right known first second) :
    Warns source name place visits (left ∪ right) known first second where
  shown := warnsLeft.shown.union warnsRight.shown
  among := warnsLeft.among
  spares raised fresh := (warnsLeft.spares raised fresh).union (warnsRight.spares raised fresh)
  shuns raised fresh holds :=
    (warnsLeft.shuns raised fresh holds).union (warnsRight.shuns raised fresh holds)

/-- Code that gives the variable no value may come before other code at the same visits. -/
theorem quietly_then (quiet : ¬ left.MayWrite name)
    (warnsLeft : Warns source name place visits left known first second)
    (warnsRight : Warns source name place visits right known first second) :
    Warns source name place visits (left.seq right) known first second where
  shown := warnsLeft.shown.seq warnsRight.shown
  among := warnsLeft.among
  spares raised fresh := (warnsLeft.spares raised fresh).seq (warnsRight.spares raised fresh)
    fun stores => absurd stores.mayWrite quiet
  shuns raised fresh holds :=
    (warnsLeft.shuns raised fresh holds).seq (warnsRight.shuns raised fresh holds)

end Warns

namespace Flow

/-! ### Ways through the cases -/

/-- What may run of the cases from some case on. -/
inductive Way (env : Env) (cases : List Case) : Runs Leave → Prop
  /-- A test holds -/
  | entered : Way env cases (executeCases env ∅ cases)
  /-- The tests are made, and none holds -/
  | asked : Way env cases (executeMisses env cases)
  | missed : Way env cases ((executeMisses env cases).seq (executeDefault env cases))
  /-- The bodies run from one of them on -/
  | fallen {later : List Case} : later <:+ cases → Way env cases (executeFrom env later)

/-- The variable is known after the cases: around them, or in the block of one that goes on. -/
def Cases.Offers (cases : Cases) (name : String) : Prop :=
  cases.walk.Knows name ∨
    ∃ branch ∈ cases.branches, Rejoins branch ∧ branch.scope.mayHave name = true

theorem Cases.Offers.close {cases : Cases} {name : String} (offers : cases.Offers name) :
    cases.close.Knows name := by
  rcases offers with known | ⟨branch, member, rejoins, has⟩
  · exact known.imp_right (Or.imp_right (Block.widens_merge _ _ _).mayHave)
  · have settled : ({ branch with exits := caseExits branch } : Block) ∈
        cases.branches.map fun branch => { branch with exits := caseExits branch } :=
      List.mem_map_of_mem member
    exact .inr (.inr (Block.mayHave_merge settled rejoins has _))

/-- Walking further cases. -/
structure Cases.Adds (source : Source) (held : Leave → Prop) (name : String) (place : Span)
    (visits : List Visit) (way : Runs Leave → Prop) (before after : Cases) : Prop where
  keeps : before.Offers name → after.Offers name
  offers : ∀ runs, way runs → runs.Stores held name → after.Offers name
  warns : ∀ runs, way runs → Warns source name place visits runs (before.walk.Knows name)
    before.walk after.walk

/-- What the walk over the body of a case does, whose block is put aside. -/
structure Cases.Enters (source : Source) (held : Leave → Prop) (name : String) (place : Span)
    (visits : List Visit) (body : Runs Leave) (before after : Cases) : Prop where
  keeps : before.Offers name → after.Offers name
  knows : before.walk.Knows name → after.walk.Knows name
  offers : body.Stores held name → after.Offers name
  warns : Warns source name place visits body (before.walk.Knows name) before.walk after.walk

section

variable {env : Env} {held : Leave → Prop} {name : String} {place : Span}

theorem Way.silent {runs : Runs Leave} (way : Way env [] runs) : ∀ run ∈ runs, run.trace = [] := by
  cases way with
  | entered => exact fun _ none => none.elim
  | asked => exact silent_done
  | missed =>
    rw [executeMisses, executeDefault, Runs.done_seq]
    exact silent_done
  | fallen isLater =>
    rw [List.suffix_nil.mp isLater, executeFrom]
    exact silent_done

theorem Cases.adds_nil (cases : Cases) :
    Cases.Adds env.source held name place [] (Way env []) cases cases where
  keeps := id
  offers _ way stores := absurd stores (Runs.not_stores_of_silent way.silent)
  warns _ way := .of_silent way.silent id

/-! ### The body of a case -/

/-- The walk sees that the case may be left for the code after the `switch`. -/
def Rejoined (env : Env) (cases : List Case) : Prop :=
  (∀ case ∈ cases, Paced env true case.body ∧ jumpsLast env case.body = true) ∧
    (executeFrom env cases).EndsCase

theorem Rejoined.rejoins {test : Option Expr} {body : List Stmt} {span : Span} {announced : Bool}
    {rest : List Case} (rejoined : Rejoined env (⟨test, body, span, announced⟩ :: rest))
    (walk : Walk) : Rejoins (enterCase env body span rest walk).1 := by
  obtain ⟨followed, passes⟩ := rejoined
  obtain ⟨⟨paced, last⟩, others⟩ := List.forall_mem_cons.mp followed
  rw [executeFrom] at passes
  exact rejoins_enterCase (fun case member => follows_body env true case.body (others case member).1)
    (follows_body env true body paced) (ends_body env true body paced last)
    (fun case member => ends_body env true case.body (others case member).1 (others case member).2)
    span walk passes

/-- The body of a case, in a block of its own, with the bodies that it falls through to. -/
theorem Cases.enters {test : Option Expr} {body : List Stmt} {announced late : Bool}
    {rest : List Case} (span : Span) (cases : Cases)
    (clear : Clear (visitsStmts env.naming body ++ visitsCases env.naming late rest) env.source name
      place)
    (walked : Notices env.source held name place (visitsStmts env.naming body) (execute env body)
      { cases.walk with block := cases.walk.block.child }
      (walkStmts env body { cases.walk with block := cases.walk.block.child }))
    (rejoined : (execute env body).Stores held name →
      Rejoined env (⟨test, body, span, announced⟩ :: rest)) :
    Cases.Enters env.source held name place (visitsStmts env.naming body) (execute env body) cases
      (cases.enter env body span rest) := by
  unfold Cases.enter
  cases body with
  | nil =>
    rw [List.isEmpty_nil, if_pos rfl, visitsStmts_nil, execute_nil]
    exact ⟨id, id, fun stores => absurd stores (Runs.not_stores_of_silent silent_done),
      .of_silent silent_done id⟩
  | cons first others =>
    rw [if_neg (by simp)]
    let body := first :: others
    let ended := walkStmts env body { cases.walk with block := cases.walk.block.child }
    let checked := checkCaseBreak env span rest ended
    let inner := if checked.block.continues then checked.silently (walkFallThrough env rest)
      else checked
    have eases : Eases env.source ended checked := .checkCaseBreak span rest ended
    have echoes : Echoes (visitsCases env.naming late rest) checked inner ∧
        inner.report = checked.report := by
      by_cases goesOn : checked.block.continues = true
      · rw [show inner = checked.silently (walkFallThrough env rest) from if_pos goesOn]
        exact Echoes.silently (walkFallThrough_echoes env late rest _)
      · rw [show inner = checked from if_neg goesOn]
        exact ⟨(Echoes.refl checked).mono (List.nil_subset _), rfl⟩
    have tolerates (tolerated : cases.walk.toleratesUndefined = true) :
        inner.toleratesUndefined = true :=
      echoes.1.tolerates (eases.tolerates (walked.tolerates tolerated))
    have raises (raised : inner.Raised env.source name place) :
        ended.Raised env.source name place := by
      unfold Walk.Raised at raised
      rw [echoes.2] at raised
      exact eases.raises raised
    have warns := walked.toWarns
    refine ⟨?_, Or.imp_right (Or.imp_left tolerates), fun stores => ?_,
      warns.shown, fun raised => warns.among (raises raised),
      fun raised => warns.spares (raises raised), fun raised => warns.shuns (raises raised)⟩
    · rintro (known | ⟨branch, member, goesOn⟩)
      · exact .inl (known.imp_right (Or.imp_left tolerates))
      · exact .inr ⟨branch, List.mem_append_left _ member, goesOn⟩
    · have known : inner.Knows name :=
        echoes.1.keeps clear.right.tame.keeping (eases.knows (walked.knows stores))
      refine known.anywhere_or.imp (fun anywhere => anywhere _) fun has => ?_
      exact ⟨inner.block, List.mem_append_right _ (List.mem_singleton_self _),
        (rejoined stores).rejoins cases.walk, has⟩

/-! ### All cases -/

/-- The visits in the bodies of some cases. -/
def visitsBodies (naming : Naming) (cases : List Case) : List Visit :=
  cases.flatMap fun case => visitsStmts naming case.body

theorem executeFrom_shown (cases : List Case) :
    Shown (visitsBodies env.naming cases) (executeFrom env cases) := by
  induction cases with
  | nil =>
    rw [executeFrom_nil]
    exact .silent silent_done
  | cons case rest inductionHypothesis =>
    rw [executeFrom_cons, visitsBodies, List.flatMap_cons]
    exact ((execute_orders env case.body).shown.append_left _).seq
      (inductionHypothesis.append_right _)

/-- The tests behind the default case store nothing if early visits do not. -/
theorem quiet_misses {cases : List Case} (tame : Tame (visitsCases env.naming true cases) name) :
    ¬ (executeMisses env cases).MayWrite name := by
  rintro ⟨run, member, span, write⟩
  obtain ⟨visit, found, shows, early⟩ := executeMisses_hastened env cases run member _ write
  exact absurd ((tame visit found shows.1).2.2 (early trivial)) (by simp [shows.2.2])

/-- What may run of some cases, by what may run of the cases after the first one. -/
theorem Way.of_cons {test : Option Expr} {body : List Stmt} {span : Span} {announced : Bool}
    {rest : List Case} {runs : Runs Leave}
    (way : Way env (⟨test, body, span, announced⟩ :: rest) runs) :
    let bodies := (execute env body).seq (executeFrom env rest)
    Way env rest runs ∨ runs = bodies ∨
      (∃ later, Way env rest later ∧ runs = (evaluateOptional env test).lift.seq later) ∨
      runs = (evaluateOptional env test).lift.seq (bodies ∪ executeCases env ∅ rest) ∨
      test = none ∧ runs = (executeMisses env rest).seq bodies := by
  intro bodies
  cases way with
  | entered =>
    cases test with
    | none =>
      rw [executeCases]
      exact .inl .entered
    | some test =>
      rw [executeCases, evaluateOptional]
      exact .inr (.inr (.inr (.inl rfl)))
  | asked =>
    rw [executeMisses]
    exact .inr (.inr (.inl ⟨_, .asked, rfl⟩))
  | missed =>
    cases test with
    | none =>
      rw [executeMisses, executeDefault, evaluateOptional_none, Runs.lift_done, Runs.done_seq]
      exact .inr (.inr (.inr (.inr ⟨rfl, rfl⟩)))
    | some test =>
      rw [executeMisses, executeDefault, Runs.seq_assoc]
      exact .inr (.inr (.inl ⟨_, .missed, rfl⟩))
  | fallen isLater =>
    rcases List.suffix_cons_iff.mp isLater with rfl | isLater
    · rw [executeFrom]
      exact .inr (.inl rfl)
    · exact .inl (.fallen isLater)

/-- The first of some cases and those after it. -/
theorem Cases.adds_cons {test : Option Expr} {body : List Stmt} {announced late : Bool}
    {rest : List Case} {bodies others : List Visit} {span : Span} {before next after : Cases}
    (clear : Clear ((Visits.hastenIf late (visitsOptional env.naming test) ++ bodies) ++ others)
      env.source name place)
    (entered : Cases.Enters env.source held name place bodies (execute env body)
      { before with
        walk := walkOptional env test before.walk
        hasDefault := before.hasDefault || test.isNone } next)
    (apart : Among (visitsBodies env.naming rest) env.source name place →
      ¬ (execute env body).Stores never name)
    (quiet : test = none → ¬ (executeMisses env rest).MayWrite name)
    (added : Cases.Adds env.source held name place others (Way env rest) next after) :
    Cases.Adds env.source held name place
      ((Visits.hastenIf late (visitsOptional env.naming test) ++ bodies) ++ others)
      (Way env (⟨test, body, span, announced⟩ :: rest)) before after := by
  let around := walkOptional env test before.walk
  have asked : Notices env.source always name place
      (Visits.hastenIf late (visitsOptional env.naming test)) (evaluateOptional env test).lift
      before.walk around :=
    .of_expr ((walkOptional_gathers env test before.walk).hastenIf late)
      ((evaluateOptional_threads env test).hastenIf late) clear.left.left
  have kept : before.walk.Knows name → around.Knows name := asked.keeps
  have ofTest (writes : (evaluateOptional env test).lift.MayWrite name) : after.Offers name :=
    added.keeps (.inl (entered.knows (asked.knows writes.stores)))
  have ofBodies (stores : ((execute env body).seq (executeFrom env rest)).Stores held name) :
      after.Offers name := by
    rcases Runs.stores_seq stores with stores | ⟨_, stores⟩
    · exact added.keeps (entered.offers stores)
    · exact added.offers _ (.fallen (List.suffix_refl rest)) stores
  rw [List.append_assoc] at clear ⊢
  -- from the end of the first test on
  have passed {runs : Runs Leave} (way : Way env rest runs) :
      Warns env.source name place (bodies ++ others) runs (around.Knows name) around after.walk :=
    .skip clear.right entered.warns.among ((added.warns runs way).mono entered.knows)
  have fell : Warns env.source name place (bodies ++ others)
      ((execute env body).seq (executeFrom env rest)) (around.Knows name) around after.walk := by
    have others := added.warns _ (.fallen (List.suffix_refl rest))
    refine entered.warns.seq clear.right
      { others with shuns := fun raised fresh known => ?_ }
    rcases known with known | stores
    · exact others.shuns raised fresh (entered.knows known)
    · exact (executeFrom_shown rest).shuns fun present => apart present stores
  have tested {runs : Runs Leave} (warns : Warns env.source name place (bodies ++ others) runs
      (around.Knows name) around after.walk) :
      Warns env.source name place
        (Visits.hastenIf late (visitsOptional env.naming test) ++ (bodies ++ others))
        ((evaluateOptional env test).lift.seq runs) (before.walk.Knows name) before.walk
        after.walk := by
    refine asked.toWarns.seq clear (warns.mono fun known => ?_)
    exact known.elim kept fun stores => asked.knows (stores.mono fun _ => False.elim)
  have untested {runs : Runs Leave} (warns : Warns env.source name place (bodies ++ others) runs
      (around.Knows name) around after.walk) :
      Warns env.source name place
        (Visits.hastenIf late (visitsOptional env.naming test) ++ (bodies ++ others)) runs
        (before.walk.Knows name) before.walk after.walk :=
    .skip clear asked.among (warns.mono kept)
  refine ⟨fun offers => ?_, fun runs way stores => ?_, fun runs way => ?_⟩
  · exact added.keeps (entered.keeps (offers.imp_left kept))
  · rcases way.of_cons with way | rfl | ⟨later, wayLater, rfl⟩ | rfl | ⟨_, rfl⟩
    · exact added.offers runs way stores
    · exact ofBodies stores
    · exact (Runs.stores_seq stores).elim (fun stores => ofTest stores.mayWrite) fun stores =>
        added.offers later wayLater stores.2
    · rcases Runs.stores_seq stores with stores | ⟨_, stores⟩
      · exact ofTest stores.mayWrite
      · exact (Runs.stores_union.mp stores).elim ofBodies (added.offers _ .entered)
    · exact (Runs.stores_seq stores).elim (added.offers _ .asked) fun stores => ofBodies stores.2
  · rcases way.of_cons with way | rfl | ⟨later, wayLater, rfl⟩ | rfl | ⟨byDefault, rfl⟩
    · exact untested (passed way)
    · exact untested fell
    · exact tested (passed wayLater)
    · exact tested (fell.or (passed .entered))
    · exact .quietly_then (quiet byDefault) (untested (passed .asked)) (untested fell)

/-- The whole `switch`, after its subject. -/
theorem Cases.Adds.notices {cases : List Case} {visits : List Visit} {walk : Walk} {after : Cases}
    (added : Cases.Adds env.source (aroundLoop held) name place visits (Way env cases) { walk } after)
    (sees : Sees env.source visits walk after.walk)
    (shown : Shown visits ((executeCases env (executeDefault env cases) cases).round Runs.done))
    (clear : Clear visits env.source name place) :
    Notices env.source held name place visits
      ((executeCases env (executeDefault env cases) cases).round Runs.done) walk after.close := by
  have eases : Eases env.source after.walk after.close := .closeCases after
  refine .of_sees (sees.then_eases eases) shown clear (fun stores => ?_) fun raised fresh => ?_
  · have stores := (Runs.stores_round stores).resolve_right (Runs.not_stores_of_silent silent_done)
    obtain ⟨run, member, stored⟩ := stores
    rcases executeCases_subset env _ cases member with member | member
    · exact (added.offers _ .entered ⟨run, member, stored⟩).close
    · exact (added.offers _ .missed ⟨run, member, stored⟩).close
  · have spares {runs : Runs Leave} (way : Way env cases runs) : runs.Spares name place :=
      (added.warns runs way).spares (eases.raises raised) fresh
    have chosen : (executeCases env (executeDefault env cases) cases).Spares name place :=
      fun run member => ((spares .entered).union (spares .missed)) run
        (executeCases_subset env _ cases member)
    have silent : Runs.Shuns name place (Runs.done : Runs Leave) :=
      Runs.shuns_of_silent silent_done
    exact chosen.round silent.spares fun _ => silent

end

end Flow

end PhpAudit
