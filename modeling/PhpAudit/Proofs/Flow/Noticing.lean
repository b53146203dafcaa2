/-
This file says what a walk makes of the runs that give a variable a value: it knows the variable where
control gets to after such a run, and so it does not report a later read. The relation is carried
through the compositions of code. Only joins are in its way. They drop the branches that were left, so
a branch that stores and is left by an exit that leads to other code has to be one that may also be
completed.
-/

import PhpAudit.Proofs.Execution.Course
import PhpAudit.Proofs.Execution.Retaking
import PhpAudit.Proofs.Flow.Leaving
import PhpAudit.Proofs.Flow.Visiting

namespace PhpAudit

open Execution

/-! ### Visits of one variable -/

/-- Some visit is one at which the variable would be reported in that place. -/
def Among (visits : List Visit) (source : Source) (name : String) (place : Span) : Prop :=
  ∃ visit ∈ visits, visit.At source name place

/--
The visits of the variable leave it in order: none drops what is known or takes a reference into a
closure, and none that stores is early.
-/
def Tame (visits : List Visit) (name : String) : Prop :=
  ∀ visit ∈ visits, visit.name = name → visit.forgets = false ∧ visit.use ≠ .captured true ∧
    (visit.early = true → visit.stores = false)

/-- The visits of the variable leave it in order, and at most one stands at the place. -/
structure Clear (visits : List Visit) (source : Source) (name : String) (place : Span) : Prop where
  tame : Tame visits name
  alone : visits.Pairwise fun first second =>
    ¬ (first.At source name place ∧ second.At source name place)

instance (source : Source) (name : String) (place : Span) (visit : Visit) :
    Decidable (visit.At source name place) :=
  inferInstanceAs (Decidable (_ = _))

instance (visits : List Visit) (source : Source) (name : String) (place : Span) :
    Decidable (Among visits source name place) :=
  inferInstanceAs (Decidable (∃ visit ∈ visits, _))

instance (visits : List Visit) (name : String) : Decidable (Tame visits name) :=
  inferInstanceAs (Decidable (∀ visit ∈ visits, _))

instance (visits : List Visit) (source : Source) (name : String) (place : Span) :
    Decidable (Clear visits source name place) :=
  decidable_of_iff (Tame visits name ∧ visits.Pairwise fun first second =>
    ¬ (first.At source name place ∧ second.At source name place))
    ⟨fun ⟨tame, alone⟩ => ⟨tame, alone⟩, fun clear => ⟨clear.tame, clear.alone⟩⟩

section

variable {visits others : List Visit} {source : Source} {name : String} {place : Span}

theorem Tame.keeping (tame : Tame visits name) : Keeping visits name :=
  fun visit member named => (tame visit member named).1

/-- What stores also gives the variable a value as far as the walk knows. -/
theorem Tame.gains (tame : Tame visits name) {visit : Visit} (member : visit ∈ visits)
    (named : visit.name = name) (stores : visit.stores = true) : visit.gains = true := by
  have captured := (tame visit member named).2.1
  unfold Visit.stores at stores
  unfold Visit.gains
  split at stores <;> simp_all

theorem among_append : Among (visits ++ others) source name place ↔
    Among visits source name place ∨ Among others source name place := by
  simp only [Among, List.mem_append, or_and_right, exists_or]

theorem Among.left (among : Among visits source name place) (others : List Visit) :
    Among (visits ++ others) source name place :=
  among_append.mpr (.inl among)

theorem Among.right (among : Among others source name place) (visits : List Visit) :
    Among (visits ++ others) source name place :=
  among_append.mpr (.inr among)

/-- A change of visits that moves none of them, and takes none back to its turn. -/
structure Moves (change : Visit → Visit) : Prop where
  name : ∀ visit, (change visit).name = visit.name
  span : ∀ visit, (change visit).span = visit.span
  use : ∀ visit, (change visit).use = visit.use
  early : ∀ visit, visit.early = true → (change visit).early = true

theorem Moves.inHead : Moves Visit.inHead :=
  ⟨fun _ => rfl, fun _ => rfl, fun _ => rfl, fun _ => id⟩

theorem Moves.inBody : Moves Visit.inBody :=
  ⟨fun _ => rfl, fun _ => rfl, fun _ => rfl, fun _ => id⟩

theorem Moves.at {change : Visit → Visit} (moves : Moves change) (visit : Visit) :
    (change visit).At source name place ↔ visit.At source name place := by
  unfold Visit.At
  rw [moves.name, moves.span]

theorem Moves.among {change : Visit → Visit} (moves : Moves change) :
    Among (visits.map change) source name place ↔ Among visits source name place := by
  unfold Among
  simp only [List.mem_map, exists_exists_and_eq_and, moves.at]

/-- A loop has visits in its head and in its body. -/
theorem among_looped :
    Among (visits.map Visit.inHead ++ others.map Visit.inBody) source name place ↔
      Among (visits ++ others) source name place := by
  rw [among_append, among_append, Moves.inHead.among, Moves.inBody.among]

theorem Execution.Shown.looped {Exit : Type} {runs : Runs Exit}
    (shown : Shown (visits ++ others) runs) :
    Shown (visits.map Visit.inHead ++ others.map Visit.inBody) runs := by
  intro run member event present
  obtain ⟨visit, found, shows⟩ := shown run member event present
  rcases List.mem_append.mp found with found | found
  · exact ⟨visit.inHead, List.mem_append_left _ (List.mem_map_of_mem found), by
      cases event <;> exact shows⟩
  · exact ⟨visit.inBody, List.mem_append_right _ (List.mem_map_of_mem found), by
      cases event <;> exact shows⟩

namespace Clear

theorem nil : Clear [] source name place :=
  ⟨fun _ none => absurd none List.not_mem_nil, .nil⟩

theorem left (clear : Clear (visits ++ others) source name place) :
    Clear visits source name place :=
  ⟨fun visit member => clear.tame visit (List.mem_append_left _ member),
    (List.pairwise_append.mp clear.alone).1⟩

theorem right (clear : Clear (visits ++ others) source name place) :
    Clear others source name place :=
  ⟨fun visit member => clear.tame visit (List.mem_append_right _ member),
    (List.pairwise_append.mp clear.alone).2.1⟩

/-- The place is in one part only. -/
theorem apart (clear : Clear (visits ++ others) source name place)
    (among : Among visits source name place) : ¬ Among others source name place := by
  obtain ⟨visit, member, place⟩ := among
  rintro ⟨other, present, samePlace⟩
  exact (List.pairwise_append.mp clear.alone).2.2 visit member other present ⟨place, samePlace⟩

theorem of_map {change : Visit → Visit} (moves : Moves change)
    (clear : Clear (visits.map change) source name place) : Clear visits source name place where
  tame visit member named := by
    obtain ⟨keeps, uncaptured, early⟩ :=
      clear.tame _ (List.mem_map_of_mem member) ((moves.name visit).trans named)
    unfold Visit.forgets at keeps
    unfold Visit.stores at early
    rw [moves.use] at keeps uncaptured early
    exact ⟨keeps, uncaptured, fun isEarly => early (moves.early visit isEarly)⟩
  alone := (List.pairwise_map.mp clear.alone).imp fun apart => by
    rwa [moves.at, moves.at] at apart

theorem of_maps {change other : Visit → Visit} (moves : Moves change) (movesOther : Moves other)
    (clear : Clear (visits.map change ++ others.map other) source name place) :
    Clear (visits ++ others) source name place where
  tame visit member := (List.mem_append.mp member).elim
    ((clear.left.of_map moves).tame visit) ((clear.right.of_map movesOther).tame visit)
  alone := by
    refine List.pairwise_append.mpr ⟨(clear.left.of_map moves).alone,
      (clear.right.of_map movesOther).alone, fun first member second present => ?_⟩
    have apart := (List.pairwise_append.mp clear.alone).2.2 _ (List.mem_map_of_mem member) _
      (List.mem_map_of_mem present)
    rwa [moves.at, movesOther.at] at apart

/-- Of two visits at the place each is the other. -/
theorem eq (clear : Clear visits source name place) {first second : Visit} (member : first ∈ visits)
    (present : second ∈ visits) (atPlace : first.At source name place)
    (samePlace : second.At source name place) : first = second := by
  obtain ⟨before, after, rfl⟩ := List.append_of_mem member
  obtain ⟨_, last, across⟩ := List.pairwise_append.mp clear.alone
  rcases List.mem_append.mp present with present | present
  · exact absurd ⟨samePlace, atPlace⟩ (across second present first (.head _))
  · rcases List.mem_cons.mp present with rfl | present
    · rfl
    · exact absurd ⟨atPlace, samePlace⟩ ((List.pairwise_cons.mp last).1 second present)

end Clear

/-- Reads at the place happen at a visit there. -/
theorem Execution.Shown.shuns {Exit : Type} {runs : Runs Exit} (shown : Shown visits runs)
    (absent : ¬ Among visits source name place) : runs.Shuns name place := by
  intro run member reads
  obtain ⟨visit, found, rfl, rfl, _⟩ := shown run member _ reads
  exact absent ⟨visit, found, rfl⟩

/-- A write happens at a visit that stores. -/
theorem Execution.Shown.exists_of_mayWrite {Exit : Type} {runs : Runs Exit}
    (shown : Shown visits runs) (writes : runs.MayWrite name) :
    ∃ visit ∈ visits, visit.name = name ∧ visit.stores = true := by
  obtain ⟨run, member, span, write⟩ := writes
  obtain ⟨visit, found, named, _, stores⟩ := shown run member _ write
  exact ⟨visit, found, named, stores⟩

namespace Sees

variable {before after : Walk}

/-- A new report stands at a visit. -/
theorem among (sees : Sees source visits before after) (raised : after.Raised source name place)
    (fresh : ¬ before.Raised source name place) : Among visits source name place := by
  obtain ⟨visit, member, place, _⟩ := (sees.raises raised).resolve_left fresh
  exact ⟨visit, member, place⟩

/-- If the variable was known and is reported all the same, then in the body of a nested function. -/
theorem shuns_of_knows {Exit : Type} {runs : Runs Exit} (sees : Sees source visits before after)
    (shown : Shown visits runs) (clear : Clear visits source name place)
    (raised : after.Raised source name place) (fresh : ¬ before.Raised source name place)
    (known : before.Knows name) : runs.Shuns name place := by
  obtain ⟨visit, member, place, cause⟩ := (sees.raises raised).resolve_left fresh
  intro run run_member reads
  obtain ⟨other, found, rfl, rfl, shows⟩ := shown run run_member _ reads
  obtain rfl := clear.eq member found place rfl
  rcases cause with nested | ⟨_, unknown⟩
  · simp [Visit.clears, Visit.stores, nested] at shows
  · exact unknown clear.tame.keeping known

end Sees

end

/-! ### Reports among other code -/

/--
A new report at the place is not about what the runs write before. If the variable was known they do
not come to the place at all.
-/
structure Warns (source : Source) (name : String) (place : Span) (visits : List Visit)
    (runs : Runs Leave) (known : Prop) (before after : Walk) : Prop where
  shown : Shown visits runs
  among : after.Raised source name place → ¬ before.Raised source name place →
    Among visits source name place
  spares : after.Raised source name place → ¬ before.Raised source name place →
    runs.Spares name place
  shuns : after.Raised source name place → ¬ before.Raised source name place → known →
    runs.Shuns name place

section

variable {source : Source} {held : Leave → Prop} {name : String} {place : Span}
  {visits others : List Visit} {left right : Runs Leave} {known : Prop} {first second third : Walk}

namespace Warns

theorem mono {weaker : Prop} (warns : Warns source name place visits left known first second)
    (implies : weaker → known) : Warns source name place visits left weaker first second :=
  { warns with shuns := fun raised fresh holds => warns.shuns raised fresh (implies holds) }

/-- The blocks in which the code is walked do not matter. -/
theorem congr {start finish : Walk} (warns : Warns source name place visits left known first second)
    (begun : start.report = first.report) (ended : finish.report = second.report) :
    Warns source name place visits left known start finish := by
  have raised : finish.Raised source name place ↔ second.Raised source name place := by
    unfold Walk.Raised
    rw [ended]
  have fresh : start.Raised source name place ↔ first.Raised source name place := by
    unfold Walk.Raised
    rw [begun]
  obtain ⟨shown, among, spares, shuns⟩ := warns
  rw [← raised, ← fresh] at among spares shuns
  exact ⟨shown, among, spares, shuns⟩

/-- Nothing is reported, and nothing runs. -/
theorem of_silent (silent : ∀ run ∈ left, run.trace = [])
    (same : second.Raised source name place → first.Raised source name place) :
    Warns source name place [] left known first second where
  shown := .silent silent
  among raised fresh := absurd (same raised) fresh
  spares raised fresh := absurd (same raised) fresh
  shuns raised fresh := absurd (same raised) fresh

/-- Either of two branches. -/
theorem union (clear : Clear (visits ++ others) source name place)
    (warnsLeft : Warns source name place visits left known first second)
    (warnsRight : Warns source name place others right known second third) :
    Warns source name place (visits ++ others) (left ∪ right) known first third := by
  -- the report is in one of the branches, and the other one does not come to the place
  have sides (raised : third.Raised source name place)
      (fresh : ¬ first.Raised source name place) :
      (second.Raised source name place ∧ Among visits source name place ∧
        right.Shuns name place) ∨
      (¬ second.Raised source name place ∧ Among others source name place ∧
        left.Shuns name place) := by
    by_cases earlier : second.Raised source name place
    · have among := warnsLeft.among earlier fresh
      exact .inl ⟨earlier, among, warnsRight.shown.shuns (clear.apart among)⟩
    · have among := warnsRight.among raised earlier
      exact .inr ⟨earlier, among, warnsLeft.shown.shuns fun present => clear.apart present among⟩
  refine ⟨(warnsLeft.shown.append_left _).union (warnsRight.shown.append_right _),
    fun raised fresh => ?_, fun raised fresh => ?_, fun raised fresh holds => ?_⟩
  · rcases sides raised fresh with ⟨_, among, _⟩ | ⟨_, among, _⟩
    · exact among.left others
    · exact among.right visits
  · rcases sides raised fresh with ⟨earlier, _, shuns⟩ | ⟨earlier, _, shuns⟩
    · exact (warnsLeft.spares earlier fresh).union shuns.spares
    · exact shuns.spares.union (warnsRight.spares raised earlier)
  · rcases sides raised fresh with ⟨earlier, _, shuns⟩ | ⟨earlier, _, shuns⟩
    · exact (warnsLeft.shuns earlier fresh holds).union shuns
    · exact shuns.union (warnsRight.shuns raised earlier holds)

/-- What comes after other code knows what that code stores. -/
theorem seq (clear : Clear (visits ++ others) source name place)
    (warnsLeft : Warns source name place visits left known first second)
    (warnsRight : Warns source name place others right (known ∨ left.Stores never name) second
      third) :
    Warns source name place (visits ++ others) (left.seq right) known first third := by
  have both := union clear warnsLeft (warnsRight.mono Or.inl)
  refine ⟨(warnsLeft.shown.append_left _).seq (warnsRight.shown.append_right _), both.among,
    fun raised fresh => ?_, fun raised fresh holds => ?_⟩
  · by_cases earlier : second.Raised source name place
    · have shuns := warnsRight.shown.shuns (clear.apart (warnsLeft.among earlier fresh))
      exact (warnsLeft.spares earlier fresh).seq shuns.spares fun _ => shuns
    · have among := warnsRight.among raised earlier
      have shuns := warnsLeft.shown.shuns fun present => clear.apart present among
      exact shuns.spares.seq (warnsRight.spares raised earlier) fun stores =>
        warnsRight.shuns raised earlier (.inr stores)
  · have shuns := both.shuns raised fresh holds
    exact .seq (fun run member => shuns run (.inl member)) fun run member => shuns run (.inr member)

end Warns

end

/-! ### Runs and what the walk makes of them -/

/--
The walk takes notice of what the runs do to the variable. It knows the variable after code that
stores and is left by an exit in `held`, and it does not report reads of what was stored.
-/
structure Notices (source : Source) (held : Leave → Prop) (name : String) (place : Span)
    (visits : List Visit) (runs : Runs Leave) (before after : Walk) : Prop
    extends Warns source name place visits runs (before.Knows name) before after where
  tolerates : before.toleratesUndefined = true → after.toleratesUndefined = true
  keeps : before.Knows name → after.Knows name
  knows : runs.Stores held name → after.Knows name

namespace Notices

variable {source : Source} {held : Leave → Prop} {name : String} {place : Span}
  {visits others : List Visit} {runs left right : Runs Leave} {first second third : Walk}

theorem of_sees (sees : Sees source visits first second) (shown : Shown visits runs)
    (clear : Clear visits source name place) (knows : runs.Stores held name → second.Knows name)
    (spares : second.Raised source name place → ¬ first.Raised source name place →
      runs.Spares name place) :
    Notices source held name place visits runs first second where
  shown := shown
  among := sees.among
  spares := spares
  shuns := sees.shuns_of_knows shown clear
  tolerates := sees.tolerates
  keeps := sees.keeps clear.tame.keeping
  knows := knows

/-- Steps that visit nothing, for code that touches nothing. -/
theorem of_eases (eases : Eases source first second) (silent : ∀ run ∈ runs, run.trace = []) :
    Notices source held name place [] runs first second where
  toWarns := .of_silent silent eases.raises
  tolerates := eases.tolerates
  keeps := eases.knows
  knows stores := absurd stores (Runs.not_stores_of_silent silent)

/-- The walk over an expression gathers what its runs write, whatever comes of them. -/
theorem of_gathers (gathers : Gathers source visits first second) (threads : Threads visits runs)
    (clear : Clear visits source name place) :
    Notices source held name place visits runs first second := by
  refine .of_sees gathers.toSees threads.shown clear (fun stores => ?_) fun raised fresh => ?_
  · obtain ⟨visit, member, named, stores⟩ := threads.shown.exists_of_mayWrite stores.mayWrite
    exact gathers.gains clear.tame.keeping
      ⟨visit, member, named, clear.tame.gains member named stores⟩
  · rintro run member ⟨span, pair⟩
    obtain ⟨visit, found, atPlace, cause⟩ := (gathers.first raised).resolve_left fresh
    obtain ⟨writer, foundWriter, taker, foundTaker, showsWriter, showsTaker, link⟩ :=
      threads.ordered run member (show Event.Takes name (.read name place) from rfl) pair
    obtain ⟨rfl, rfl, shows⟩ := showsTaker
    obtain rfl := clear.eq found foundTaker atPlace rfl
    rcases cause with nested | ⟨_, unknown⟩
    · simp [Visit.clears, Visit.stores, nested] at shows
    -- the writer is in its turn, so the visit at the place knows of it
    rcases link with early | ⟨_, known⟩
    · exact absurd ((clear.tame writer foundWriter showsWriter.1).2.2 early)
        (by simp [showsWriter.2.2])
    · refine (unknown clear.tame.keeping).2 ?_
      rw [← showsWriter.1]
      exact known (clear.tame.gains foundWriter showsWriter.1 showsWriter.2.2)

/-- The same for the runs of an expression as those of a statement. -/
theorem of_expr {value : Runs Abort} (gathers : Gathers source visits first second)
    (threads : Threads visits value) (clear : Clear visits source name place) :
    Notices source held name place visits value.lift first second := by
  have lifted : Threads (Visits.chain visits []) value.lift := threads.bind fun
    | none => .silent silent_done
    | some abort => .silent (silent_leave (Leave.aborted abort))
  rw [Visits.chain, List.map_nil, List.append_nil] at lifted
  exact .of_gathers gathers lifted clear

/-- Only what is known and reported matters, not the exits of the blocks or where they stand. -/
theorem congr {start finish : Walk}
    (notices : Notices source held name place visits runs first second)
    (begun : start.scope = first.scope ∧ start.toleratesUndefined = first.toleratesUndefined ∧
      start.report = first.report)
    (ended : finish.scope = second.scope ∧
      finish.toleratesUndefined = second.toleratesUndefined ∧ finish.report = second.report) :
    Notices source held name place visits runs start finish := by
  obtain ⟨scope, tolerates, report⟩ := begun
  obtain ⟨scopeAfter, toleratesAfter, reportAfter⟩ := ended
  have known : start.Knows name ↔ first.Knows name := by
    unfold Walk.Knows
    rw [scope, tolerates]
  have knownAfter : finish.Knows name ↔ second.Knows name := by
    unfold Walk.Knows
    rw [scopeAfter, toleratesAfter]
  refine ⟨(notices.toWarns.mono known.mp).congr report reportAfter, ?_, ?_, ?_⟩
  · rw [tolerates, toleratesAfter]
    exact notices.tolerates
  · rw [known, knownAfter]
    exact notices.keeps
  · rw [knownAfter]
    exact notices.knows

/-- The same visits, as those of a loop. -/
theorem relabel (notices : Notices source held name place visits runs first second)
    (shown : Shown others runs)
    (within : Among visits source name place → Among others source name place) :
    Notices source held name place others runs first second :=
  { notices with shown, among := fun raised fresh => within (notices.among raised fresh) }

theorem looped (notices : Notices source held name place (visits ++ others) runs first second) :
    Notices source held name place (visits.map Visit.inHead ++ others.map Visit.inBody) runs first
      second :=
  notices.relabel notices.shown.looped among_looped.mpr

theorem then_eases (notices : Notices source held name place visits runs first second)
    (eases : Eases source second third) :
    Notices source held name place visits runs first third where
  shown := notices.shown
  among raised := notices.among (eases.raises raised)
  spares raised := notices.spares (eases.raises raised)
  shuns raised := notices.shuns (eases.raises raised)
  tolerates tolerated := eases.tolerates (notices.tolerates tolerated)
  keeps known := eases.knows (notices.keeps known)
  knows stores := eases.knows (notices.knows stores)

theorem eases_then (eases : Eases source first second)
    (notices : Notices source held name place visits runs second third) :
    Notices source held name place visits runs first third where
  shown := notices.shown
  among raised fresh := notices.among raised fun before => fresh (eases.raises before)
  spares raised fresh := notices.spares raised fun before => fresh (eases.raises before)
  shuns raised fresh known :=
    notices.shuns raised (fun before => fresh (eases.raises before)) (eases.knows known)
  tolerates tolerated := notices.tolerates (eases.tolerates tolerated)
  keeps known := notices.keeps (eases.knows known)
  knows := notices.knows

/-- Code that comes after other code. -/
theorem seq (clear : Clear (visits ++ others) source name place)
    (noticesLeft : Notices source held name place visits left first second)
    (noticesRight : Notices source held name place others right second third) :
    Notices source held name place (visits ++ others) (left.seq right) first third where
  toWarns := noticesLeft.toWarns.seq clear (noticesRight.toWarns.mono (Or.rec noticesLeft.keeps
    fun stores => noticesLeft.knows (stores.mono fun _ => False.elim)))
  tolerates tolerated := noticesRight.tolerates (noticesLeft.tolerates tolerated)
  keeps known := noticesRight.keeps (noticesLeft.keeps known)
  knows stores := (Runs.stores_seq stores).elim
    (fun stores => noticesRight.keeps (noticesLeft.knows stores))
    fun stores => noticesRight.knows stores.2

end Notices

/-! ### Loops -/

/-- Nothing is said of how a run ends. -/
def always : Leave → Prop :=
  fun _ => True

/-- No round of a loop around the place gives the variable a value if another round may follow. -/
def Rounds (visits : List Visit) (source : Source) (name : String) (place : Span)
    (test body step : Runs Leave) : Prop :=
  Among visits source name place → ¬ test.Stores never name ∧
    ¬ body.Stores (· = .continued) name ∧ ¬ step.Stores never name

theorem Execution.Runs.MayWrite.stores {runs : Runs Leave} {name : String}
    (writes : runs.MayWrite name) : runs.Stores always name :=
  writes.imp fun _ => And.imp_right fun writes => ⟨fun _ _ => trivial, writes⟩

namespace Notices

section

variable {source : Source} {held : Leave → Prop} {name : String} {place : Span}
  {tests steps visits : List Visit} {test body step : Runs Leave}
  {first entered tested stepped inner : Walk} {block : Block}

/-- A loop that tests first: its body is joined as one that may not run, whatever its exits. -/
theorem loop (noticesTest : Notices source always name place tests test first tested)
    (clear : Clear ((tests ++ steps) ++ visits) source name place)
    (noticesStep : Notices source always name place steps step tested stepped)
    (walked : Notices source (aroundLoop held) name place visits body { stepped with block } inner)
    (begun : block.scope = stepped.scope)
    (rounds : Rounds ((tests ++ steps) ++ visits) source name place test body step) :
    Notices source held name place ((tests ++ steps) ++ visits) (Runs.loop test body step) first
      (Walk.mapBlock { inner with block := stepped.block } (·.mergeOptional inner.block)) := by
  have outside (known : stepped.Knows name) :
      (Walk.mapBlock { inner with block := stepped.block }
        (·.mergeOptional inner.block)).Knows name :=
    known.imp_right (Or.imp walked.tolerates (Block.widens_mergeOptional ..).mayHave)
  have parts : Warns source name place ((tests ++ steps) ++ visits) ((test ∪ step) ∪ body)
      (first.Knows name) first inner := by
    have bodies : Warns source name place visits body (stepped.Knows name) stepped inner := by
      refine (walked.toWarns.mono fun known => ?_).congr rfl rfl
      refine known.imp_right (Or.imp_right fun has => ?_)
      rwa [← begun] at has
    have heads := noticesTest.toWarns.union clear.left (noticesStep.toWarns.mono noticesTest.keeps)
    exact heads.union clear (bodies.mono fun known => noticesStep.keeps (noticesTest.keeps known))
  have shown : Shown ((tests ++ steps) ++ visits) (Runs.loop test body step) :=
    .loop ((noticesTest.shown.append_left _).append_left _) (walked.shown.append_right _)
      ((noticesStep.shown.append_right _).append_left _)
  refine ⟨⟨shown, parts.among, fun raised fresh => ?_, fun raised fresh known => ?_⟩,
    fun tolerates => ?_, fun known => ?_, fun stores => ?_⟩
  · have spares := parts.spares raised fresh
    obtain ⟨testQuiet, bodyQuiet, stepQuiet⟩ := rounds (parts.among raised fresh)
    exact .loop (fun run member => spares run (.inl (.inl member)))
      (fun run member => spares run (.inr member))
      (fun run member => spares run (.inl (.inr member))) testQuiet bodyQuiet stepQuiet
  · have shuns := parts.shuns raised fresh known
    exact .loop (fun run member => shuns run (.inl (.inl member)))
      (fun run member => shuns run (.inr member))
      (fun run member => shuns run (.inl (.inr member)))
  · exact walked.tolerates (noticesStep.tolerates (noticesTest.tolerates tolerates))
  · exact outside (noticesStep.keeps (noticesTest.keeps known))
  · rcases Runs.stores_loop stores with writes | stores | writes
    · exact outside (noticesStep.keeps (noticesTest.knows writes.stores))
    · exact (walked.knows stores).imp_right (Or.imp_right Block.mayHave_mergeOptional)
    · exact outside (noticesStep.knows writes.stores)

/-- A loop that tests last is walked like its body and its test. -/
theorem doWhile (clear : Clear (visits ++ tests) source name place)
    (walked : Notices source (aroundLoop held) name place visits body first entered)
    (noticesTest : Notices source always name place tests test entered tested)
    (rounds : Rounds (visits ++ tests) source name place test body Runs.done) :
    Notices source held name place (visits ++ tests) (body.round (Runs.loop test body Runs.done))
      first tested := by
  have parts : Warns source name place (visits ++ tests) (body ∪ test) (first.Knows name) first
      tested := walked.toWarns.union clear (noticesTest.toWarns.mono walked.keeps)
  have silent : Runs.Shuns name place (Runs.done : Runs Leave) := Runs.shuns_of_silent silent_done
  have ofBody (stores : body.Stores (aroundLoop held) name) : tested.Knows name :=
    noticesTest.keeps (walked.knows stores)
  have shown : Shown (visits ++ tests) (body.round (Runs.loop test body Runs.done)) :=
    (walked.shown.append_left tests).round (.loop (noticesTest.shown.append_right visits)
      (walked.shown.append_left tests) (.silent silent_done))
  refine ⟨⟨shown, parts.among, fun raised fresh => ?_, fun raised fresh known => ?_⟩,
    fun tolerates => ?_, fun known => ?_, fun stores => ?_⟩
  · have spares := parts.spares raised fresh
    have bodySpares : body.Spares name place := fun run member => spares run (.inl member)
    have testSpares : test.Spares name place := fun run member => spares run (.inr member)
    obtain ⟨testQuiet, bodyQuiet, stepQuiet⟩ := rounds (parts.among raised fresh)
    exact bodySpares.round
      (.loop testSpares bodySpares silent.spares testQuiet bodyQuiet stepQuiet)
      fun stores => absurd stores bodyQuiet
  · have shuns := parts.shuns raised fresh known
    have bodyShuns : body.Shuns name place := fun run member => shuns run (.inl member)
    exact bodyShuns.round (.loop (fun run member => shuns run (.inr member)) bodyShuns silent)
  · exact noticesTest.tolerates (walked.tolerates tolerates)
  · exact noticesTest.keeps (walked.keeps known)
  · rcases Runs.stores_round stores with stores | stores
    · exact ofBody stores
    rcases Runs.stores_loop stores with writes | stores | ⟨run, silent, writes⟩
    · exact noticesTest.knows writes.stores
    · exact ofBody stores
    · rw [silent.1, written_nil] at writes
      exact writes.elim

end

end Notices

end PhpAudit
