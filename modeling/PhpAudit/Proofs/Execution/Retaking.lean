/-
This file is about runs that read a variable at some place after they gave it a value, and about runs
that give it one before control gets to other code. Not every exit matters to that code: a `break` only
to what comes after the loop, an exception only to the clauses that may catch it. The exits after which
control may get there are a parameter; code that only leaves by other exits is of no account.
-/

import PhpAudit.Proofs.Execution.Reading
import PhpAudit.Proofs.Execution.Ordering

namespace PhpAudit.Execution

/-! ### Runs that come to other code -/

/-- Control gets to the other code: the run completes, or it is left by an exit that leads there. -/
def Run.Resumes (held : Leave → Prop) (run : Run Leave) : Prop :=
  ∀ exit, run.exit = some exit → held exit

/-- No exit leads to the other code. -/
def never : Leave → Prop :=
  fun _ => False

/-- The exits that matter to a loop, apart from those that matter to the code around it. -/
def aroundLoop (held : Leave → Prop) : Leave → Prop :=
  fun exit => exit = .broke ∨ exit = .continued ∨ held exit

/-- The exits that matter to clauses that may catch exceptions. -/
def aroundTry (caught : Prop) (held : Leave → Prop) : Leave → Prop :=
  fun exit => held exit ∨ caught ∧ exit = .aborted .thrown

/-- The exits that matter where a last clause follows: it may leave the code in another way. -/
def aroundLast (last : Runs Leave) (held : Leave → Prop) : Leave → Prop :=
  fun exit => held exit ∨ ∃ taken, held taken ∧ last.EndsIn (some taken)

/-- The exits after which the last clause of a `try` runs. -/
def settled : Leave → Prop :=
  fun exit => Runs.settles (some exit) = true

theorem Run.resumes_of_completes {held : Leave → Prop} {run : Run Leave} (completes : run.exit = none) :
    run.Resumes held := by
  intro exit equal
  rw [completes] at equal
  cases equal

theorem Run.Resumes.mono {held wider : Leave → Prop} {run : Run Leave} (resumes : run.Resumes held)
    (weaker : ∀ exit, held exit → wider exit) : run.Resumes wider :=
  fun exit equal => weaker exit (resumes exit equal)

namespace Runs

variable {Exit : Type} {name : String} {held : Leave → Prop}

/-- Some run gives the variable a value, however it ends. -/
def MayWrite (name : String) (runs : Runs Exit) : Prop :=
  ∃ run ∈ runs, name ∈ written run.trace

/-- Some run gives the variable a value, and control gets to the other code. -/
def Stores (held : Leave → Prop) (name : String) (runs : Runs Leave) : Prop :=
  ∃ run ∈ runs, run.Resumes held ∧ name ∈ written run.trace

theorem Stores.mayWrite {runs : Runs Leave} (stores : runs.Stores held name) : runs.MayWrite name :=
  stores.imp fun _ => And.imp_right And.right

theorem Stores.mono {wider : Leave → Prop} {runs : Runs Leave} (stores : runs.Stores held name)
    (weaker : ∀ exit, held exit → wider exit) : runs.Stores wider name :=
  stores.imp fun _ => And.imp_right (And.imp_left (·.mono weaker))

/-- Only completing runs count if no exit does. -/
theorem Stores.endsIn {runs : Runs Leave} (stores : runs.Stores never name) : runs.EndsIn none := by
  obtain ⟨⟨trace, _ | exit⟩, member, resumes, _⟩ := stores
  · exact ⟨_, member, rfl⟩
  · exact (resumes exit rfl).elim

theorem mayWrite_of_lift {runs : Runs Abort} (writes : runs.lift.MayWrite name) :
    runs.MayWrite name := by
  obtain ⟨_, ⟨before, member, after, follows, rfl⟩, writes⟩ := writes
  refine ⟨before, member, ?_⟩
  rw [written_append] at writes
  refine writes.resolve_right fun later => ?_
  cases exit : before.exit <;> rw [exit] at follows <;> rw [follows.1, written_nil] at later <;>
    exact later

theorem not_stores_of_silent {runs : Runs Leave} (silent : ∀ run ∈ runs, run.trace = []) :
    ¬ runs.Stores held name := by
  rintro ⟨run, member, _, writes⟩
  rwa [silent run member, written_nil] at writes

theorem stores_union {first second : Runs Leave} :
    Stores held name (first ∪ second) ↔ first.Stores held name ∨ second.Stores held name := by
  simp [Stores, or_and_right, exists_or]

/-- The first part stores, or it completes and the second part stores. -/
theorem stores_seq {first second : Runs Leave} (stores : (first.seq second).Stores held name) :
    first.Stores held name ∨ first.EndsIn none ∧ second.Stores held name := by
  obtain ⟨run, member, resumes, writes⟩ := stores
  rcases mem_seq.mp member with ⟨only, _⟩ | ⟨before, start, completes, after, follows, rfl⟩
  · exact .inl ⟨run, only, resumes, writes⟩
  · rw [written_append] at writes
    exact writes.imp
      (fun writes => ⟨before, start, Run.resumes_of_completes completes, writes⟩)
      fun writes => ⟨⟨before, start, completes⟩, after, follows, resumes, writes⟩

theorem stores_round {body next : Runs Leave} (stores : (body.round next).Stores held name) :
    body.Stores (aroundLoop held) name ∨ next.Stores held name := by
  obtain ⟨_, ⟨before, start, after, follows, rfl⟩, resumes, writes⟩ := stores
  rw [written_append] at writes
  obtain ⟨trace, exit⟩ := before
  match exit, start, follows with
  | none, start, follows =>
    exact writes.imp (fun writes => ⟨_, start, Run.resumes_of_completes rfl, writes⟩)
      fun writes => ⟨after, follows, resumes, writes⟩
  | some .continued, start, follows =>
    refine writes.imp (fun writes => ⟨_, start, ?_, writes⟩)
      fun writes => ⟨after, follows, resumes, writes⟩
    rintro _ ⟨⟩
    exact .inr (.inl rfl)
  | some .broke, start, follows =>
    refine .inl ⟨_, start, ?_, writes.resolve_right ?_⟩
    · rintro _ ⟨⟩
      exact .inl rfl
    · rw [follows.1, written_nil]
      exact id
  | some .returned, start, follows | some (.aborted _), start, follows =>
    refine .inl ⟨_, start, ?_, writes.resolve_right ?_⟩
    · intro exit equal
      exact .inr (.inr (resumes exit ((List.mem_singleton.mp follows.2).trans equal)))
    · rw [follows.1, written_nil]
      exact id

/-- A loop stores by its test or its step, or by its body, whose jumps it takes. -/
theorem stores_loop {test body step : Runs Leave} (stores : (loop test body step).Stores held name) :
    test.MayWrite name ∨ body.Stores (aroundLoop held) name ∨ step.MayWrite name := by
  obtain ⟨run, member, resumes, writes⟩ := stores
  obtain ⟨count, member⟩ := Set.mem_iUnion.mp member
  have stores : (rounds test body step count).Stores held name := ⟨run, member, resumes, writes⟩
  clear member resumes writes
  induction count with
  | zero => exact absurd stores (not_stores_of_silent (silent_leave _))
  | succ count inductionHypothesis =>
    rcases stores_seq stores with stores | ⟨_, stores⟩
    · exact .inl stores.mayWrite
    rcases stores_union.mp stores with stores | stores
    · exact absurd stores (not_stores_of_silent silent_done)
    rcases stores_round stores with stores | stores
    · exact .inr (.inl stores)
    rcases stores_seq stores with stores | ⟨_, stores⟩
    · exact .inr (.inr stores.mayWrite)
    · exact inductionHypothesis stores

/-- A `try` stores by its body, also before an exception that is caught, or by a clause. -/
theorem stores_rescue {caught : Prop} {body handlers : Runs Leave}
    (catches : handlers.Nonempty → caught) (stores : (body.rescue handlers).Stores held name) :
    body.Stores (aroundTry caught held) name ∨ handlers.Stores held name := by
  obtain ⟨_, ⟨before, start, after, follows, rfl⟩, resumes, writes⟩ := stores
  rw [written_append] at writes
  obtain ⟨trace, exit⟩ := before
  match exit, start, follows with
  | none, start, follows =>
    refine .inl ⟨_, start, Run.resumes_of_completes rfl, writes.resolve_right ?_⟩
    rw [follows.1, written_nil]
    exact id
  | some (.aborted .thrown), start, .inl follows =>
    refine .inl ⟨_, start, ?_, writes.resolve_right ?_⟩
    · intro exit equal
      exact .inl (resumes exit ((List.mem_singleton.mp follows.2).trans equal))
    · rw [follows.1, written_nil]
      exact id
  | some (.aborted .thrown), start, .inr follows =>
    refine writes.imp (fun writes => ⟨_, start, ?_, writes⟩)
      fun writes => ⟨after, follows, resumes, writes⟩
    rintro _ ⟨⟩
    exact .inr ⟨catches ⟨after, follows⟩, rfl⟩
  | some .returned, start, follows | some .broke, start, follows | some .continued, start, follows
  | some (.aborted .died), start, follows | some (.aborted .running), start, follows =>
    refine .inl ⟨_, start, ?_, writes.resolve_right ?_⟩
    · intro exit equal
      exact .inl (resumes exit ((List.mem_singleton.mp follows.2).trans equal))
    · rw [follows.1, written_nil]
      exact id

/-- Code with a last clause stores by one of the two, and the clause may change how it ends. -/
theorem stores_ensuring {body last : Runs Leave} (stores : (body.ensuring last).Stores held name) :
    body.Stores (aroundLast last held) name ∨ last.Stores held name := by
  obtain ⟨_, ⟨before, start, after, follows, rfl⟩, resumes, writes⟩ := stores
  rw [written_append] at writes
  -- the exit of the body is also that of the whole
  have kept (exit : after.exit = before.exit) : before.Resumes (aroundLast last held) :=
    fun taken equal => .inl (resumes taken (exit.trans equal))
  dsimp only at follows
  split at follows
  · obtain ⟨middle, finishes, ended, follows, rfl⟩ := follows
    obtain ⟨trace, exit⟩ := middle
    cases exit with
    | none =>
      obtain ⟨silent, exit⟩ := follows
      refine writes.imp (fun writes => ⟨before, start, kept (List.mem_singleton.mp exit), writes⟩)
        fun writes => ⟨_, finishes, Run.resumes_of_completes rfl, ?_⟩
      rwa [silent, List.append_nil] at writes
    | some exit =>
      obtain ⟨silent, ends⟩ := follows
      have ends := List.mem_singleton.mp ends
      have leads : held exit := resumes exit ends
      refine writes.imp (fun writes => ⟨before, start, ?_, writes⟩)
        fun writes => ⟨_, finishes, ?_, ?_⟩
      · exact fun _ _ => .inr ⟨exit, leads, _, finishes, rfl⟩
      · rintro _ ⟨⟩
        exact leads
      · rwa [silent, List.append_nil] at writes
  · refine .inl ⟨before, start, kept (List.mem_singleton.mp follows.2), writes.resolve_right ?_⟩
    rw [follows.1, written_nil]
    exact id

end Runs

/-! ### Reads after writes -/

/-- The variable is read at the place after it was given a value. -/
def Retakes (name : String) (place : Span) (trace : List Event) : Prop :=
  ∃ span, [.write name span, .read name place].Sublist trace

section

variable {name : String} {place : Span}

theorem Retakes.reads {trace : List Event} (retakes : Retakes name place trace) :
    .read name place ∈ trace := by
  obtain ⟨span, pair⟩ := retakes
  exact pair.subset (.tail _ (.head _))

/-- The pair stands in one of two parts, or one of it in each. -/
theorem Retakes.of_append {first second : List Event} (retakes : Retakes name place (first ++ second)) :
    Retakes name place first ∨ Retakes name place second ∨
      name ∈ written first ∧ .read name place ∈ second := by
  obtain ⟨span, pair⟩ := retakes
  rcases pair_sublist_append pair with pair | pair | ⟨write, read⟩
  · exact .inl ⟨span, pair⟩
  · exact .inr (.inl ⟨span, pair⟩)
  · exact .inr (.inr ⟨⟨span, write⟩, read⟩)

end

namespace Runs

variable {Exit Other : Type} {name : String} {place : Span}

/-- No run reads the variable at the place. -/
def Shuns (name : String) (place : Span) (runs : Runs Exit) : Prop :=
  ∀ run ∈ runs, .read name place ∉ run.trace

/-- No run reads the variable at the place after it gave it a value. -/
def Spares (name : String) (place : Span) (runs : Runs Exit) : Prop :=
  ∀ run ∈ runs, ¬ Retakes name place run.trace

theorem Shuns.spares {runs : Runs Exit} (shuns : runs.Shuns name place) : runs.Spares name place :=
  fun run member retakes => shuns run member retakes.reads

theorem shuns_of_silent {runs : Runs Exit} (silent : ∀ run ∈ runs, run.trace = []) :
    runs.Shuns name place := by
  intro run member
  rw [silent run member]
  exact List.not_mem_nil

theorem Shuns.union {first second : Runs Exit} (left : first.Shuns name place)
    (right : second.Shuns name place) : Shuns name place (first ∪ second) :=
  fun run member => member.elim (left run) (right run)

theorem Shuns.bind {first : Runs Exit} {next : Option Exit → Runs Other}
    (left : first.Shuns name place) (right : ∀ exit, (next exit).Shuns name place) :
    (first.bind next).Shuns name place := by
  rintro _ ⟨before, start, after, follows, rfl⟩ reads
  exact (List.mem_append.mp reads).elim (left before start) (right _ after follows)

theorem Shuns.seq {first second : Runs Exit} (left : first.Shuns name place)
    (right : second.Shuns name place) : (first.seq second).Shuns name place := by
  refine left.bind ?_
  rintro (_ | exit)
  · exact right
  · exact shuns_of_silent (silent_leave exit)

theorem Shuns.round {body next : Runs Leave} (left : body.Shuns name place)
    (right : next.Shuns name place) : (body.round next).Shuns name place := by
  refine left.bind ?_
  rintro (_ | _ | _ | _ | _)
  · exact right
  · exact shuns_of_silent (silent_leave _)
  · exact shuns_of_silent silent_done
  · exact right
  · exact shuns_of_silent (silent_leave _)

theorem Shuns.loop {test body step : Runs Leave} (tested : test.Shuns name place)
    (shuns : body.Shuns name place) (stepped : step.Shuns name place) :
    (Runs.loop test body step).Shuns name place := by
  have rounds (count : Nat) : (rounds test body step count).Shuns name place := by
    induction count with
    | zero => exact shuns_of_silent (silent_leave _)
    | succ count inductionHypothesis =>
      exact tested.seq ((shuns_of_silent silent_done).union
        (shuns.round (stepped.seq inductionHypothesis)))
  intro run member
  obtain ⟨count, member⟩ := Set.mem_iUnion.mp member
  exact rounds count run member

namespace Spares

theorem union {first second : Runs Exit} (left : first.Spares name place)
    (right : second.Spares name place) : Spares name place (first ∪ second) :=
  fun run member => member.elim (left run) (right run)

/-- What follows a run that gave the variable a value does not read it at the place. -/
theorem bind {first : Runs Exit} {next : Option Exit → Runs Other} (left : first.Spares name place)
    (right : ∀ exit, (next exit).Spares name place)
    (apart : ∀ run ∈ first, name ∈ written run.trace → (next run.exit).Shuns name place) :
    (first.bind next).Spares name place := by
  rintro _ ⟨before, start, after, follows, rfl⟩ retakes
  rcases retakes.of_append with retakes | retakes | ⟨writes, reads⟩
  · exact left before start retakes
  · exact right _ after follows retakes
  · exact apart before start writes after follows reads

theorem seq {first second : Runs Leave} (left : first.Spares name place)
    (right : second.Spares name place)
    (apart : first.Stores never name → second.Shuns name place) :
    (first.seq second).Spares name place := by
  refine left.bind ?_ ?_
  · rintro (_ | exit)
    · exact right
    · exact (shuns_of_silent (silent_leave exit)).spares
  · rintro ⟨trace, _ | exit⟩ member writes
    · exact apart ⟨_, member, Run.resumes_of_completes rfl, writes⟩
    · exact shuns_of_silent (silent_leave exit)

theorem round {body next : Runs Leave} (left : body.Spares name place)
    (right : next.Spares name place)
    (apart : body.Stores (· = .continued) name → next.Shuns name place) :
    (body.round next).Spares name place := by
  refine left.bind ?_ ?_
  · rintro (_ | _ | _ | _ | _)
    · exact right
    · exact (shuns_of_silent (silent_leave _)).spares
    · exact (shuns_of_silent silent_done).spares
    · exact right
    · exact (shuns_of_silent (silent_leave _)).spares
  · rintro ⟨trace, _ | _ | _ | _ | _⟩ member writes
    · exact apart ⟨_, member, Run.resumes_of_completes rfl, writes⟩
    · exact shuns_of_silent (silent_leave _)
    · exact shuns_of_silent silent_done
    · refine apart ⟨_, member, ?_, writes⟩
      rintro _ ⟨⟩
      rfl
    · exact shuns_of_silent (silent_leave _)

/-- The variable is not given a value in a round of a loop that another one may follow. -/
theorem loop {test body step : Runs Leave} (tested : test.Spares name place)
    (spares : body.Spares name place) (stepped : step.Spares name place)
    (testQuiet : ¬ test.Stores never name) (bodyQuiet : ¬ body.Stores (· = .continued) name)
    (stepQuiet : ¬ step.Stores never name) : (Runs.loop test body step).Spares name place := by
  have rounds (count : Nat) : (rounds test body step count).Spares name place := by
    induction count with
    | zero => exact (shuns_of_silent (silent_leave _)).spares
    | succ count inductionHypothesis =>
      have next := stepped.seq inductionHypothesis fun stores => absurd stores stepQuiet
      have round := spares.round next fun stores => absurd stores bodyQuiet
      exact tested.seq ((shuns_of_silent silent_done).spares.union round)
        fun stores => absurd stores testQuiet
  intro run member
  obtain ⟨count, member⟩ := Set.mem_iUnion.mp member
  exact rounds count run member

theorem rescue {body handlers : Runs Leave} (left : body.Spares name place)
    (right : handlers.Spares name place)
    (apart : body.Stores (· = .aborted .thrown) name → handlers.Shuns name place) :
    (body.rescue handlers).Spares name place := by
  refine left.bind ?_ ?_
  · rintro (_ | _ | _ | _ | _ | _ | _)
    · exact (shuns_of_silent silent_done).spares
    · exact (shuns_of_silent (silent_leave _)).spares
    · exact (shuns_of_silent (silent_leave _)).spares
    · exact (shuns_of_silent (silent_leave _)).spares
    · exact (shuns_of_silent (silent_leave _)).spares.union right
    · exact (shuns_of_silent (silent_leave _)).spares
    · exact (shuns_of_silent (silent_leave _)).spares
  · rintro ⟨trace, _ | _ | _ | _ | _ | _ | _⟩ member writes
    · exact shuns_of_silent silent_done
    · exact shuns_of_silent (silent_leave _)
    · exact shuns_of_silent (silent_leave _)
    · exact shuns_of_silent (silent_leave _)
    · refine (shuns_of_silent (silent_leave _)).union (apart ⟨_, member, ?_, writes⟩)
      rintro _ ⟨⟩
      rfl
    · exact shuns_of_silent (silent_leave _)
    · exact shuns_of_silent (silent_leave _)

theorem ensuring {body last : Runs Leave} (left : body.Spares name place)
    (right : last.Spares name place)
    (apart : body.Stores settled name → last.Shuns name place) :
    (body.ensuring last).Spares name place := by
  refine left.bind (fun pending => ?_) fun run member writes => ?_
  · split
    · refine right.bind ?_ ?_
      · rintro (_ | exit)
        · exact (shuns_of_silent (silent_ending _)).spares
        · exact (shuns_of_silent (silent_leave exit)).spares
      · rintro ⟨trace, _ | exit⟩ _ _
        · exact shuns_of_silent (silent_ending _)
        · exact shuns_of_silent (silent_leave exit)
    · exact (shuns_of_silent (silent_ending _)).spares
  · split
    · next settles =>
      have resumes : run.Resumes settled := by
        intro exit equal
        unfold settled
        rwa [← equal]
      rintro _ ⟨⟨trace, exit⟩, finishes, after, follows, rfl⟩
      have absent := apart ⟨run, member, resumes, writes⟩ _ finishes
      cases exit <;> rw [follows.1, List.append_nil] <;> exact absent
    · exact shuns_of_silent (silent_ending _)

end Spares

end Runs

end PhpAudit.Execution
