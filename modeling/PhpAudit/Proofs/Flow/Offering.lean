/-
This file says what a join of branches offers to the code after it. A join takes over the variables
of the branches that go on. So a variable that some run of a branch stored is known after the join if
it was known around the branches, or if the branch goes on. The walk reads off the exits of a branch
whether it does; it is right about that in the fragment in which it follows the runs.

A report in one of several branches is not about what the others write. What was known before the
branches is known in each of them.
-/

import PhpAudit.Proofs.Flow.Noticing

namespace PhpAudit

open Execution

namespace Walk

variable {walk : Walk} {name : String}

/-- What is known in a block is known in any block, or the block has the variable. -/
theorem Knows.anywhere_or (known : walk.Knows name) :
    (∀ block, Walk.Knows { walk with block } name) ∨ walk.block.scope.mayHave name = true := by
  rcases known with super | tolerates | has
  · exact .inl fun _ => .inl super
  · exact .inl fun _ => .inr (.inl tolerates)
  · exact .inr has

theorem Knows.dropMarkers {markers : List String} (known : walk.Knows name)
    (unmarked : name ∉ markers) : (walk.dropMarkers markers).Knows name := by
  have found := walk.get?_dropMarkers unmarked
  obtain ⟨scope, equal⟩ := walk.dropMarkers_eq markers
  refine known.imp_right (Or.imp (fun tolerates => ?_) fun has => ?_)
  · rw [equal]
    exact tolerates
  · unfold Scope.mayHave at *
    rwa [found]

end Walk

/-! ### The branches of an `if` -/

namespace Flow.Chain

section

variable {source : Source} {held : Leave → Prop} {name : String} {place : Span}
  {chain : Chain} {inner : Walk}

/-- The variable is known after the branches: around them, or in one that goes on. -/
def Offers (chain : Chain) (name : String) : Prop :=
  chain.walk.Knows name ∧ Walk.Knows { chain.walk with block := chain.no } name ∨
    ∃ branch ∈ chain.branches, branch.continues = true ∧ branch.scope.mayHave name = true

theorem Offers.close (offers : chain.Offers name) (unmarked : name ∉ chain.markers)
    (continuesInFalse : Bool) : (chain.close continuesInFalse).Knows name := by
  unfold Chain.close
  dsimp only
  refine Walk.Knows.dropMarkers ?_ unmarked
  rcases offers with ⟨around, inFalse⟩ | ⟨branch, member, continues, has⟩
  · have known : Walk.Knows (if continuesInFalse then chain.continueInFalse else chain.walk) name := by
      cases continuesInFalse
      · exact around
      · exact inFalse
    exact known.imp_right (Or.imp_right (Block.widens_merge (Block.propagate _ _ _) _ _).mayHave)
  · exact .inr (.inr (Block.mayHave_merge member continues has _))

/-- The join reports nothing. -/
theorem raised_close {continuesInFalse : Bool}
    (raised : (chain.close continuesInFalse).Raised source name place) :
    chain.walk.Raised source name place := by
  unfold Chain.close at raised
  dsimp only at raised
  obtain ⟨scope, equal⟩ := Walk.dropMarkers_eq chain.markers
    (Walk.mapBlock (if continuesInFalse then chain.continueInFalse else chain.walk) fun block =>
      (block.propagate chain.branches chain.links).merge chain.branches chain.links)
  rw [equal] at raised
  cases continuesInFalse <;> exact raised

theorem Offers.push (offers : chain.Offers name) (initial : Scope)
    (tolerates : chain.walk.toleratesUndefined = true → inner.toleratesUndefined = true) :
    (chain.push initial inner.block { inner with block := chain.walk.block }).Offers name := by
  rcases offers with ⟨around, inFalse⟩ | ⟨branch, member, goesOn⟩
  · exact .inl ⟨around.imp_right (Or.imp_left tolerates), inFalse.imp_right (Or.imp_left tolerates)⟩
  · exact .inr ⟨branch, List.mem_append_left _ member, goesOn⟩

/-- What a branch knows is known after it if it goes on. -/
theorem offers_push (chain : Chain) (initial : Scope) (outer : Block) (known : inner.Knows name)
    (continues : inner.block.continues = true) :
    (chain.push initial inner.block { inner with block := outer }).Offers name := by
  rcases known.anywhere_or with anywhere | has
  · exact .inl ⟨anywhere _, anywhere _⟩
  · exact .inr ⟨_, List.mem_append_right _ (List.mem_singleton_self _), continues,
      Block.mayHave_restoreImplicit has⟩

/-- Walking further branches, which stand for `runs`, where the tests before them are false. -/
structure Adds (source : Source) (held : Leave → Prop) (name : String) (place : Span)
    (visits : List Visit) (runs : Runs Leave) (before after : Chain) : Prop where
  unmarked : name ∉ after.markers
  keeps : before.Offers name → after.Offers name
  offers : runs.Stores held name → after.Offers name
  warns : Warns source name place visits runs
    (Walk.Knows { before.walk with block := before.no } name) before.walk after.walk

theorem adds_nothing (chain : Chain) (unmarked : name ∉ chain.markers) (links : Nat) :
    Adds source held name place [] Runs.done chain { chain with links } where
  unmarked := unmarked
  keeps offers := offers
  offers stores := absurd stores (Runs.not_stores_of_silent silent_done)
  warns := .of_silent silent_done id

/-- The last branch, without a test. -/
theorem adds_last {visits : List Visit} {runs : Runs Leave} (unmarked : name ∉ chain.markers)
    (walked : Notices source held name place visits runs
      { chain.walk with block := chain.no } inner)
    (continues : runs.Stores held name → inner.block.continues = true) (initial : Scope) :
    Adds source held name place visits runs chain
      (chain.push initial inner.block { inner with block := chain.walk.block }) where
  unmarked := unmarked
  keeps offers := offers.push initial walked.tolerates
  offers stores := chain.offers_push initial _ (walked.knows stores) (continues stores)
  warns := walked.toWarns.congr rfl rfl

/-- A branch with its test, and the branches after it. -/
theorem adds_tested {tests bodies others : List Visit} {test : Runs Abort} {body rest : Runs Leave}
    {guard : Guard} {after : Chain} (initial : Scope) (outer : Block)
    (weighs : Weighs source tests (.start { chain.walk with block := chain.no } chain.markers) guard)
    (threads : Threads tests test) (unmarked : name ∉ chain.markers)
    (clear : Clear ((tests ++ bodies) ++ others) source name place)
    (walked : Notices source held name place bodies body guard.walk inner)
    (around : chain.walk.Knows name → Walk.Knows { guard.walk with block := outer } name)
    (tested : test.lift.Stores held name →
      (({ chain with markers := guard.markers, no := (guard.split chain.no).no } : Chain).push
        initial inner.block { inner with block := outer }).Offers name)
    (continues : body.Stores held name → inner.block.continues = true)
    (added : name ∉ guard.markers → Adds source held name place others rest
      (({ chain with markers := guard.markers, no := (guard.split chain.no).no } : Chain).push
        initial inner.block { inner with block := outer }) after) :
    Adds source held name place ((tests ++ bodies) ++ others) (test.lift.seq (body ∪ rest)) chain
      after := by
  have keeping := clear.left.left.tame.keeping
  have added := added fun marked => unmarked (weighs.markers keeping marked)
  have begun : Eases source { chain.walk with block := chain.no }
      (Guard.start { chain.walk with block := chain.no } chain.markers).walk :=
    .of_eq rfl rfl rfl rfl rfl
  have tested' : Notices source always name place tests test.lift
      { chain.walk with block := chain.no } guard.walk :=
    .of_expr (.eases_then begun weighs.walk) threads clear.left.left
  -- what was known where the tests before are false, or is stored by the test
  have gained (known : Walk.Knows { chain.walk with block := chain.no } name ∨
      test.lift.Stores never name) : guard.walk.Knows name ∧
      Walk.Knows { inner with block := (guard.split chain.no).no } name := by
    have gained : Walk.Knows { chain.walk with block := chain.no } name ∨ Gained tests name := by
      refine known.imp_right fun stores => ?_
      obtain ⟨visit, member, named, stores⟩ := tested'.shown.exists_of_mayWrite stores.mayWrite
      exact ⟨visit, member, named, clear.left.left.tame.gains member named stores⟩
    exact ⟨weighs.yes keeping gained, (weighs.no keeping unmarked gained).imp_right
      (Or.imp_left walked.tolerates)⟩
  have pushed (offers : chain.Offers name) :
      (({ chain with markers := guard.markers, no := (guard.split chain.no).no } : Chain).push
        initial inner.block { inner with block := outer }).Offers name := by
    rcases offers with ⟨known, inFalse⟩ | ⟨branch, member, goesOn⟩
    · exact .inl ⟨(around known).imp_right (Or.imp_left walked.tolerates),
        (gained (.inl inFalse)).2⟩
    · exact .inr ⟨branch, List.mem_append_left _ member, goesOn⟩
  refine ⟨added.unmarked, added.keeps ∘ pushed, fun stores => ?_, ?_⟩
  · rcases Runs.stores_seq stores with stores | ⟨_, stores⟩
    · exact added.keeps (tested stores)
    rcases Runs.stores_union.mp stores with stores | stores
    · exact added.keeps (offers_push _ initial outer (walked.knows stores) (continues stores))
    · exact added.offers stores
  · rw [List.append_assoc] at clear ⊢
    have first : Warns source name place tests test.lift
        (Walk.Knows { chain.walk with block := chain.no } name) chain.walk guard.walk :=
      tested'.toWarns.congr rfl rfl
    have passed : Warns source name place others rest
        (Walk.Knows { inner with block := (guard.split chain.no).no } name) inner after.walk :=
      added.warns.congr rfl rfl
    have taken := walked.toWarns.mono fun known => (gained known).1
    exact first.seq clear (taken.union clear.right (passed.mono fun known => (gained known).2))

end

end Flow.Chain

/-! ### Exceptions -/

/-- Any statement of the body may have thrown, so what the body may have defined may be defined. -/
theorem Block.mayHave_afterThrow {block body : Block} {name : String}
    (has : body.scope.mayHave name = true) :
    (Flow.afterThrow block body).scope.mayHave name = true := by
  obtain ⟨info, member⟩ := Scope.exists_mem_entries has
  have collected : (Flow.afterThrow block body).scope = body.scope.entries.foldl
      (fun scope entry => scope.add entry.1 entry.2.types false) block.scope := by
    unfold Flow.afterThrow
    have start : block.scope = block.child.scope := rfl
    rw [start]
    generalize block.child = start
    induction body.scope.entries generalizing start with
    | nil => rfl
    | cons entry rest inductionHypothesis => exact inductionHypothesis _
  rw [collected]
  exact Scope.mayHave_foldl (fun scope _ => .add scope ..) (fun scope _ => scope.mayHave_add_self ..)
    member _

namespace Flow

section

variable {name : String} {walk inner : Walk} {catches : Catches} {tried thrown : Block}

/-- What the body of a `try` knows is known after an exception in it. -/
theorem knows_afterThrow (known : inner.Knows name) (block : Block) :
    Walk.Knows { inner with block := afterThrow block inner.block } name :=
  known.anywhere_or.elim (fun anywhere => anywhere _) fun has =>
    .inr (.inr (Block.mayHave_afterThrow has))

/-- The variable is known after the clauses: around them, or in one that goes on. -/
def Catches.Offers (catches : Catches) (name : String) : Prop :=
  catches.walk.Knows name ∨
    ∃ branch ∈ catches.branches, branch.continues = true ∧ branch.scope.mayHave name = true

/-- The variable is known in all clauses, or around them. -/
def Catches.Covers (catches : Catches) (name : String) : Prop :=
  catches.walk.Knows name ∨ ∀ branch ∈ catches.branches, branch.scope.mayHave name = true

theorem Catches.Covers.offers (covers : catches.Covers name)
    (reached : ∃ branch ∈ catches.branches, branch.continues = true) : catches.Offers name := by
  refine covers.imp_right fun all => ?_
  obtain ⟨branch, member, continues⟩ := reached
  exact ⟨branch, member, continues, all branch member⟩

theorem knows_closeTry
    (offers : catches.Offers name ∨ tried.continues = true ∧ tried.scope.mayHave name = true) :
    (closeTry tried catches).Knows name := by
  have joined {branch : Block} (member : branch ∈ catches.branches ++ [tried])
      (continues : branch.continues = true) (has : branch.scope.mayHave name = true) :
      (closeTry tried catches).Knows name :=
    .inr (.inr (Block.mayHave_merge member continues has _))
  rcases offers with (known | ⟨branch, member, continues, has⟩) | ⟨continues, has⟩
  · exact known.imp_right (Or.imp_right (Block.widens_merge _ _ _).mayHave)
  · exact joined (List.mem_append_left _ member) continues has
  · exact joined (List.mem_append_right _ (List.mem_singleton_self _)) continues has

/-- All that the last clause may have defined is taken over, whether it goes on or not. -/
theorem knows_closeFinally (known : inner.Knows name) (walk : Walk)
    (tolerates : inner.toleratesUndefined = true → walk.toleratesUndefined = true) :
    (closeFinally inner.block walk).Knows name := by
  rcases known with super | tolerated | has
  · exact .inl super
  · exact .inr (.inl (tolerates tolerated))
  · obtain ⟨info, member⟩ := Scope.exists_mem_entries has
    exact .inr (.inr (Scope.mayHave_foldl (fun scope _ => .add scope ..)
      (fun scope _ => scope.mayHave_add_self ..) member _))

/-- Walking further clauses, which stand for `runs` and start with what is known in `thrown`. -/
structure Catches.Adds (source : Source) (held : Leave → Prop) (name : String) (place : Span)
    (visits : List Visit) (runs : Runs Leave) (thrown : Block) (before after : Catches) : Prop where
  tolerates : before.walk.toleratesUndefined = true → after.walk.toleratesUndefined = true
  keeps : before.Offers name → after.Offers name
  covers : thrown.scope.mayHave name = true → before.Covers name → after.Covers name
  offers : runs.Stores held name → after.Offers name
  warns : Warns source name place visits runs (Walk.Knows { before.walk with block := thrown } name)
    before.walk after.walk

end

section

variable {source : Source} {held : Leave → Prop} {name : String} {place : Span}
  {visits others : List Visit} {clause rest : Runs Leave} {thrown : Block} {catches after : Catches}
  {inner : Walk}

theorem Catches.adds_nothing (catches : Catches) :
    catches.Adds source held name place [] ∅ thrown catches where
  tolerates := id
  keeps := id
  covers _ := id
  offers := by
    rintro ⟨_, none, _⟩
    exact none.elim
  warns := .of_silent (fun _ none => none.elim) id

/-- A clause and those after it. -/
theorem Catches.adds_clause (clear : Clear (visits ++ others) source name place)
    (walked : Notices source held name place visits clause
      { catches.walk with block := thrown.child } inner)
    (continues : clause.Stores held name → inner.block.continues = true)
    (added : Catches.Adds source held name place others rest thrown
      (catches.push inner.block { inner with block := catches.walk.block }) after) :
    catches.Adds source held name place (visits ++ others) (clause ∪ rest) thrown after where
  tolerates tolerated := added.tolerates (walked.tolerates tolerated)
  keeps := by
    rintro (known | ⟨branch, member, goesOn⟩)
    · exact added.keeps (.inl (known.imp_right (Or.imp_left walked.tolerates)))
    · exact added.keeps (.inr ⟨branch, List.mem_append_left _ member, goesOn⟩)
  covers has := by
    intro covers
    have known : inner.Knows name := walked.keeps (.inr (.inr has))
    refine added.covers has ?_
    rcases covers with around | all
    · exact .inl (around.imp_right (Or.imp_left walked.tolerates))
    · refine known.anywhere_or.imp (fun anywhere => anywhere _) fun has branch member => ?_
      rcases List.mem_append.mp member with member | member
      · exact all branch member
      · rwa [List.mem_singleton.mp member]
  offers := by
    intro stores
    rcases Runs.stores_union.mp stores with stores | stores
    · refine added.keeps ((walked.knows stores).anywhere_or.imp (fun anywhere => anywhere _)
        fun has => ⟨inner.block, ?_, continues stores, has⟩)
      exact List.mem_append_right _ (List.mem_singleton_self _)
    · exact added.offers stores
  warns := by
    have own : Warns source name place visits clause
        (Walk.Knows { catches.walk with block := thrown } name) catches.walk inner :=
      walked.toWarns.congr rfl rfl
    have later : Warns source name place others rest
        (Walk.Knows { inner with block := thrown } name) inner after.walk :=
      added.warns.congr rfl rfl
    exact own.union clear (later.mono (Or.imp_right (Or.imp_left walked.tolerates)))

end

/-! ### The whole `try` -/

section

variable {source : Source} {inside held : Leave → Prop} {name : String} {place : Span}
  {visits clauses : List Visit} {body handlers : Runs Leave} {walk entered : Walk} {caught : Catches}
  (walked : Notices source inside name place visits body { walk with block := walk.block.child }
    entered)
  (added : Catches.Adds source held name place clauses handlers (afterThrow walk.block entered.block)
    { walk := { entered with block := walk.block } } caught)

include walked added

/-- A clause knows what the body stored before the exception. -/
theorem spares_rescue (clear : Clear (visits ++ clauses) source name place)
    (leads : Among clauses source name place → inside (.aborted .thrown))
    (raised : caught.walk.Raised source name place) (fresh : ¬ walk.Raised source name place) :
    (body.rescue handlers).Spares name place ∧ Among (visits ++ clauses) source name place := by
  by_cases earlier : entered.Raised source name place
  · have among := walked.among earlier fresh
    have shuns := added.warns.shown.shuns (clear.apart among)
    exact ⟨(walked.spares earlier fresh).rescue shuns.spares fun _ => shuns, among.left clauses⟩
  · have among := added.warns.among raised earlier
    have shuns := walked.shown.shuns fun present => clear.apart present among
    refine ⟨shuns.spares.rescue (added.warns.spares raised earlier) fun stores => ?_,
      among.right visits⟩
    refine added.warns.shuns raised earlier
      (knows_afterThrow (walked.knows (stores.mono fun exit equal => ?_)) walk.block)
    rw [equal]
    exact leads among

/-- Without a last clause: the body or some clause has to go on if the body stores. -/
theorem knows_rescue {caughtThere : Prop} (catches : handlers.Nonempty → caughtThere)
    (wide : ∀ exit, aroundTry caughtThere held exit → inside exit)
    (reached : body.Stores (aroundTry caughtThere held) name → entered.block.continues = true ∨
      ∃ branch ∈ caught.branches, branch.continues = true)
    (stores : (body.rescue handlers).Stores held name) :
    (closeTry entered.block caught).Knows name := by
  rcases Runs.stores_rescue catches stores with stores | stores
  · have known := walked.knows (stores.mono wide)
    have covers : caught.Offers name ∨
        caught.Covers name ∧ entered.block.scope.mayHave name = true := by
      rcases known.anywhere_or with anywhere | has
      · exact .inl (added.keeps (.inl (anywhere walk.block)))
      · exact .inr ⟨added.covers (Block.mayHave_afterThrow has) (.inr (List.forall_mem_nil _)), has⟩
    rcases covers with offers | ⟨covers, has⟩
    · exact knows_closeTry (.inl offers)
    · rcases reached stores with continues | reached
      · exact knows_closeTry (.inr ⟨continues, has⟩)
      · exact knows_closeTry (.inl (covers.offers reached))
  · exact knows_closeTry (.inl (added.offers stores))

/-- With a last clause, which starts with what the body may have defined. -/
theorem knows_ensuring {last : Runs Leave} {lasts : List Visit} {final : Leave → Prop}
    {caughtThere : Prop} {finished after : Walk} (catches : handlers.Nonempty → caughtThere)
    (wide : ∀ exit, aroundTry caughtThere (aroundLast last final) exit → inside exit)
    (narrow : ∀ exit, aroundLast last final exit → held exit)
    (walkedLast : Notices source final name place lasts last
      { caught.walk with block := (afterThrow walk.block entered.block).child } finished)
    (same : after.block = caught.walk.block)
    (tolerates : finished.toleratesUndefined = true → after.toleratesUndefined = true)
    (stores : ((body.rescue handlers).ensuring last).Stores final name) :
    (closeFinally finished.block (closeTry entered.block { caught with walk := after })).Knows
      name := by
  rcases Runs.stores_ensuring stores with stores | stores
  · rcases Runs.stores_rescue catches stores with stores | stores
    · -- the last clause starts after any statement of the body
      have thrown := (knows_afterThrow (walked.knows (stores.mono wide)) walk.block).imp_right
        (Or.imp_left added.tolerates)
      exact knows_closeFinally (walkedLast.keeps thrown) _ tolerates
    · have offers : Catches.Offers { caught with walk := after } name := by
        refine (added.offers (stores.mono narrow)).imp_left fun known => ?_
        refine known.imp_right (Or.imp (tolerates ∘ walkedLast.tolerates) fun has => ?_)
        unfold Walk.scope
        rwa [same]
      have eases (closed : Walk) : Eases source closed (closeFinally finished.block closed) :=
        .closeFinally finished.block closed
      exact (eases _).knows (knows_closeTry (.inl offers))
  · exact knows_closeFinally (walkedLast.knows stores) _ tolerates

end

/-- The last clause knows what the body stored, however the body was left. -/
theorem spares_ensuring {source : Source} {held : Leave → Prop} {name : String} {place : Span}
    {visits lasts : List Visit} {rescued last : Runs Leave} {walk before finished : Walk}
    {thrown : Block} (clear : Clear (visits ++ lasts) source name place)
    (shown : Shown visits rescued)
    (earlier : before.Raised source name place → ¬ walk.Raised source name place →
      rescued.Spares name place ∧ Among visits source name place)
    (walkedLast : Notices source held name place lasts last { before with block := thrown } finished)
    (leads : Among lasts source name place → rescued.Stores settled name →
      Walk.Knows { before with block := thrown } name)
    (raised : finished.Raised source name place) (fresh : ¬ walk.Raised source name place) :
    (rescued.ensuring last).Spares name place := by
  by_cases first : before.Raised source name place
  · obtain ⟨spares, among⟩ := earlier first fresh
    have shuns := walkedLast.shown.shuns (clear.apart among)
    exact spares.ensuring shuns.spares fun _ => shuns
  · have among := walkedLast.among raised first
    have shuns := shown.shuns fun present => clear.apart present among
    exact shuns.spares.ensuring (walkedLast.spares raised first) fun stores =>
      walkedLast.shuns raised first (leads among stores)

end Flow

end PhpAudit
