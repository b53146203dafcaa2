/-
This file defines when a run reads only variables that have a value, and gives the rules by which
this is shown for a set of runs. The rules carry the set of variables that are known to have a value
along the code, as a program logic carries a precondition: a piece of code is entered with some known
variables, its reads have to be among them or come after a write, and where control goes on the
variables known then have to satisfy what the code after it needs. Known variables only ever grow,
so the exits that leave the code need no postcondition of their own.
-/

import PhpAudit.Options
import PhpAudit.Proofs.Execution.Run

namespace PhpAudit.Execution

/-- The variables that a trace gives a value. -/
def written (trace : List Event) : Set String :=
  {name | ∃ span, .write name span ∈ trace}

/-- No variable is read before it has a value; superglobals always have one. -/
def ReadsDefined (known : Set String) (trace : List Event) : Prop :=
  ∀ before name span after, trace = before ++ .read name span :: after →
    isSuperglobal name = true ∨ name ∈ known ∨ name ∈ written before

@[simp]
theorem written_nil : written [] = ∅ := by
  simp [written]

@[simp]
theorem written_append (first second : List Event) :
    written (first ++ second) = written first ∪ written second := by
  ext name
  simp [written, exists_or]

@[simp]
theorem written_write (name : String) (span : Span) : written [.write name span] = {name} := by
  ext other
  simp [written]

@[simp]
theorem written_read (name : String) (span : Span) : written [.read name span] = ∅ := by
  ext other
  simp [written]

theorem readsDefined_nil (known : Set String) : ReadsDefined known [] := by
  intro before name span after equal
  simp at equal

theorem readsDefined_write (known : Set String) (name : String) (span : Span) :
    ReadsDefined known [.write name span] := by
  intro before other place after equal
  simp [List.singleton_eq_append_iff] at equal

theorem readsDefined_read {known : Set String} {name : String}
    (defined : isSuperglobal name = true ∨ name ∈ known) (span : Span) :
    ReadsDefined known [.read name span] := by
  intro before other place after equal
  have single : other = name := by
    rcases List.singleton_eq_append_iff.mp equal with ⟨_, rest⟩ | ⟨_, rest⟩
    · simp_all
    · simp at rest
  rw [single]
  exact defined.imp_right .inl

/-- The writes of the first part count for the reads of the second. -/
theorem ReadsDefined.append {known : Set String} {first second : List Event}
    (left : ReadsDefined known first) (right : ReadsDefined (known ∪ written first) second) :
    ReadsDefined known (first ++ second) := by
  intro before name span after equal
  rcases List.append_eq_append_iff.mp equal with ⟨middle, rfl, rest⟩ | ⟨middle, rfl, rest⟩
  · -- the read is in the second part
    have defined := right middle name span after rest
    simp only [Set.mem_union, written_append] at defined ⊢
    tauto
  · cases middle with
    | nil =>
      simp only [List.nil_append, List.append_nil] at *
      have defined := right [] name span after rest.symm
      simpa [or_assoc] using defined
    | cons event middle =>
      obtain ⟨rfl, rfl⟩ := List.cons.inj rest
      exact left before name span middle rfl

/-! ### Rules for sets of runs -/

/--
Every run that is entered with `known` variables reads only defined ones, and where it completes the
variables known then satisfy `goal`.
-/
def Runs.Reads {Exit : Type} (known : Set String) (runs : Runs Exit) (goal : Set String → Prop) :
    Prop :=
  ∀ run ∈ runs, ReadsDefined known run.trace ∧
    (run.exit = none → goal (known ∪ written run.trace))

namespace Runs.Reads

variable {Exit Other : Type} {known : Set String} {goal middle : Set String → Prop}

theorem mono {runs : Runs Exit} (reads : Reads known runs middle)
    (weaker : ∀ later, known ⊆ later → middle later → goal later) : Reads known runs goal :=
  fun run member => ⟨(reads run member).1, fun completes =>
    weaker _ Set.subset_union_left ((reads run member).2 completes)⟩

theorem forget {runs : Runs Exit} (reads : Reads known runs goal) :
    Reads known runs fun _ => True :=
  reads.mono fun _ _ _ => trivial

/-- Where a run completes, there is a run that completes. -/
theorem completes {runs : Runs Exit} (reads : Reads known runs goal) :
    Reads known runs fun later => runs.EndsIn none ∧ goal later :=
  fun run member => ⟨(reads run member).1, fun completed =>
    ⟨⟨run, member, completed⟩, (reads run member).2 completed⟩⟩

/-- Goes on after the first part with what is known then, whatever its end. -/
theorem bind {first : Runs Exit} {next : Option Exit → Runs Other}
    (reads : Reads known first middle)
    (goesOn : ∀ exit later, known ⊆ later → (exit = none → middle later) →
      Reads later (next exit) goal) : Reads known (first.bind next) goal := by
  rintro _ ⟨before, member, after, follows, rfl⟩
  obtain ⟨defined, reached⟩ := reads before member
  obtain ⟨definedNext, reachedNext⟩ :=
    goesOn before.exit _ Set.subset_union_left reached after follows
  refine ⟨defined.append definedNext, fun completed => ?_⟩
  rw [written_append, ← Set.union_assoc]
  exact reachedNext completed

theorem ending {exits : List (Option Exit)} (holds : none ∈ exits → goal known) :
    Reads known (Runs.ending exits) goal := by
  rintro run ⟨empty, member⟩
  rw [empty]
  refine ⟨readsDefined_nil known, fun completes => ?_⟩
  rw [written_nil, Set.union_empty]
  exact holds (completes ▸ member)

theorem done (holds : goal known) : Reads known (Runs.done : Runs Exit) goal :=
  ending fun _ => holds

theorem leave (exit : Exit) : Reads known (Runs.leave exit) goal :=
  ending fun member => by simp at member

theorem attempt (holds : goal known) : Reads known Runs.attempt goal :=
  ending fun _ => holds

theorem callee {returns : Bool} (holds : goal known) : Reads known (Runs.callee returns) goal := by
  unfold Runs.callee
  split
  · exact attempt holds
  · exact ending fun _ => holds

theorem write (name : String) (span : Span) (holds : goal (known ∪ {name})) :
    Reads known (emit (.write name span) : Runs Exit) goal := by
  rintro run rfl
  exact ⟨readsDefined_write known name span, fun _ => by rwa [written_write]⟩

theorem read {name : String} (defined : isSuperglobal name = true ∨ name ∈ known) (span : Span)
    (holds : goal known) : Reads known (emit (.read name span) : Runs Exit) goal := by
  rintro run rfl
  refine ⟨readsDefined_read defined span, fun _ => ?_⟩
  rwa [written_read, Set.union_empty]

theorem union {first second : Runs Exit} (left : Reads known first goal)
    (right : Reads known second goal) : Reads known (first ∪ second) goal :=
  fun run member => member.elim (left run) (right run)

theorem empty : Reads known (∅ : Runs Exit) goal :=
  fun _ member => absurd member (Set.notMem_empty _)

theorem optional {runs : Runs Exit} (holds : goal known) (reads : Reads known runs goal) :
    Reads known runs.optional goal :=
  (done holds).union reads

theorem seq {first second : Runs Exit} (reads : Reads known first middle)
    (goesOn : ∀ later, known ⊆ later → middle later → Reads later second goal) :
    Reads known (first.seq second) goal :=
  reads.bind fun exit later grown reached => by
    cases exit with
    | none => exact goesOn later grown (reached rfl)
    | some exit => exact leave exit

theorem lift {runs : Runs Abort} (reads : Reads known runs goal) : Reads known runs.lift goal :=
  reads.bind fun exit later _ reached => by
    cases exit with
    | none => exact done (reached rfl)
    | some abort => exact leave _

/-- After a round of a loop the next one may start, or the loop is over. -/
theorem round {body next : Runs Leave} (reads : Reads known body middle)
    (ended : ∀ later, known ⊆ later → goal later)
    (goesOn : ∀ later, known ⊆ later → Reads later next goal) :
    Reads known (body.round next) goal :=
  reads.bind fun exit later grown _ => by
    split
    · exact goesOn later grown
    · exact goesOn later grown
    · exact done (ended later grown)
    · exact leave _

/--
A loop whose parts read only what is known before it, or what its test defines. `middle` is what
the test guarantees.
-/
theorem loop {test body step : Runs Leave}
    (tested : ∀ later, known ⊆ later → Reads later test middle)
    (persists : ∀ later further, later ⊆ further → middle later → middle further)
    (ended : ∀ later, known ⊆ later → middle later → goal later)
    (entered : ∀ later, known ⊆ later → middle later → Reads later body fun _ => True)
    (stepped : ∀ later, known ⊆ later → middle later → Reads later step fun _ => True) :
    Reads known (Runs.loop test body step) goal := by
  have rounds (count : Nat) (later : Set String) (grown : known ⊆ later) :
      Reads later (Runs.rounds test body step count) goal := by
    induction count generalizing later with
    | zero => exact leave _
    | succ count inductionHypothesis =>
      refine (tested later grown).seq fun first afterTest holds => ?_
      have grownFirst := grown.trans afterTest
      refine optional (ended first grownFirst holds) ((entered first grownFirst holds).round ?_ ?_)
      · intro second afterBody
        exact ended second (grownFirst.trans afterBody) (persists first second afterBody holds)
      · intro second afterBody
        have grownSecond := grownFirst.trans afterBody
        exact (stepped second grownSecond (persists first second afterBody holds)).seq
          fun third afterStep _ => inductionHypothesis third (grownSecond.trans afterStep)
  intro run member
  obtain ⟨count, member⟩ := Set.mem_iUnion.mp member
  exact rounds count known subset_rfl run member

theorem rescue {body handlers : Runs Leave} (reads : Reads known body goal)
    (handled : ∀ later, known ⊆ later → Reads later handlers goal) :
    Reads known (body.rescue handlers) goal :=
  reads.bind fun exit later grown reached => by
    split
    · exact (leave _).union (handled later grown)
    · exact done (reached rfl)
    · exact leave _

/-- A last clause runs after the body, which need not have completed. -/
theorem ensuring {body last : Runs Leave} {after : Set String → Prop}
    (reads : Reads known body middle) (finished : ∀ later, known ⊆ later → Reads later last after)
    (joined : ∀ later further, known ⊆ later → later ⊆ further → middle later → after further →
      goal further) :
    Reads known (body.ensuring last) goal :=
  reads.bind fun pending later grown reached => by
    split
    · refine (finished later grown).bind fun exit further grownFurther lastReached => ?_
      cases exit with
      | none =>
        refine ending fun member => ?_
        obtain rfl := List.mem_singleton.mp member
        exact joined later further grown grownFurther (reached rfl) (lastReached rfl)
      | some exit => exact leave exit
    · next unsettled =>
      refine ending fun member => ?_
      obtain rfl := List.mem_singleton.mp member
      exact absurd rfl unsettled

end Runs.Reads

end PhpAudit.Execution
