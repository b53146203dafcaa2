/-
This file defines the runs of a piece of code: which variables it touches, in order, and how it
ends. A piece of code stands for the set of its runs. Nothing is said about values, so a condition
may turn out either way and a loop may go round any number of times; what a walk over the code
claims has to hold of every run in the set.

Expressions and statements end in different ways. An expression can only be aborted; a statement can
also be left by `return`, `break` and `continue`. The kind of exit is therefore a parameter.
-/

import Mathlib.Data.Set.Lattice
import PhpAudit.Syntax.Span

namespace PhpAudit.Execution

/-- What a run does to a variable. -/
inductive Event where
  /-- Takes its value -/
  | read (name : String) (span : Span)
  /-- Asks whether it is set, as `isset` does, and takes its value if it is -/
  | probe (name : String) (span : Span)
  /-- Gives it a value, or binds it by reference -/
  | write (name : String) (span : Span)
  | unset (name : String)
deriving DecidableEq

/-- How an expression ends without a value. -/
inductive Abort where
  /-- An exception is on its way -/
  | thrown
  /-- The program is over -/
  | died
  /-- The run was observed before its end, or has none -/
  | running
deriving DecidableEq

/-- How control leaves a statement. -/
inductive Leave where
  | returned
  | broke
  | continued
  | aborted (abort : Abort)
deriving DecidableEq

/-- One run of a piece of code. -/
structure Run (Exit : Type) where
  trace : List Event
  /-- How the code was left; `none` if control goes on after it -/
  exit : Option Exit

/-- The runs of a piece of code. -/
abbrev Runs (Exit : Type) := Set (Run Exit)

namespace Runs

variable {Exit Other : Type}

/-! ### Building runs -/

/-- Runs that touch no variable and end in one of the given ways. -/
def ending (exits : List (Option Exit)) : Runs Exit :=
  {run | run.trace = [] ∧ run.exit ∈ exits}

/-- Nothing happens. -/
def done : Runs Exit :=
  ending [none]

/-- The code is left at once. -/
def leave (exit : Exit) : Runs Exit :=
  ending [some exit]

/-- A single event. -/
def emit (event : Event) : Runs Exit :=
  {⟨[event], none⟩}

/-- Goes on after `first` as its end demands. -/
def bind (first : Runs Exit) (next : Option Exit → Runs Other) : Runs Other :=
  {run | ∃ before ∈ first, ∃ after ∈ next before.exit,
    run = ⟨before.trace ++ after.trace, after.exit⟩}

/-- The first piece of code and, unless it was left, the second. -/
def seq (first second : Runs Exit) : Runs Exit :=
  first.bind fun
    | none => second
    | some exit => leave exit

/-- Code that may be skipped. -/
def optional (runs : Runs Exit) : Runs Exit :=
  done ∪ runs

/-- The runs of an expression as runs of a statement. -/
def lift (runs : Runs Abort) : Runs Leave :=
  runs.bind fun
    | none => done
    | some abort => leave (.aborted abort)

/-- One evaluation step: any of them may raise an exception or, in a handler, end the program. -/
def attempt : Runs Abort :=
  ending [none, some .thrown, some .died, some .running]

/-- The body of a callee, which returns only if it can. -/
def callee (returns : Bool) : Runs Abort :=
  if returns then attempt else ending [some .thrown, some .died, some .running]

/-! ### Loops -/

/-- One round of the body of a loop, and what comes after it. -/
def round (body next : Runs Leave) : Runs Leave :=
  body.bind fun
    | none | some .continued => next
    | some .broke => done
    | some exit => leave exit

/-- At most `count` rounds of a loop; a run that needs more is observed before its end. -/
def rounds (test body step : Runs Leave) : Nat → Runs Leave
  | 0 => leave (.aborted .running)
  | count + 1 => test.seq (optional (body.round (step.seq (rounds test body step count))))

/-- A loop that tests before each round. -/
def loop (test body step : Runs Leave) : Runs Leave :=
  ⋃ count, rounds test body step count

/-! ### Exceptions -/

/-- Code whose exceptions may be caught by `handlers`. -/
def rescue (body handlers : Runs Leave) : Runs Leave :=
  body.bind fun
    | some (.aborted .thrown) => leave (.aborted .thrown) ∪ handlers
    | none => done
    | some exit => leave exit

/-- Whether the last clause of a `try` runs: not if the program is over. -/
def settles : Option Leave → Bool
  | some (.aborted .died) | some (.aborted .running) => false
  | _ => true

/-- Code with a last clause: an exit of the clause replaces the exit of the code. -/
def ensuring (body last : Runs Leave) : Runs Leave :=
  body.bind fun pending =>
    if settles pending then
      last.bind fun
        | none => ending [pending]
        | some exit => leave exit
    else
      ending [pending]

/-! ### Nothing before and nothing after -/

theorem done_seq (runs : Runs Exit) : done.seq runs = runs := by
  ext run
  constructor
  · rintro ⟨before, ⟨empty, exit⟩, after, follows, rfl⟩
    rw [List.mem_singleton.mp exit] at follows
    rw [empty]
    exact follows
  · intro member
    exact ⟨⟨[], none⟩, ⟨rfl, List.mem_singleton_self _⟩, run, member, rfl⟩

theorem seq_done (runs : Runs Exit) : runs.seq done = runs := by
  ext run
  constructor
  · rintro ⟨before, member, after, follows, rfl⟩
    obtain ⟨trace, exit⟩ := before
    cases exit <;> obtain ⟨empty, exit⟩ := follows <;> rw [empty, List.mem_singleton.mp exit,
      List.append_nil] <;> exact member
  · intro member
    obtain ⟨trace, exit⟩ := run
    refine ⟨⟨trace, exit⟩, member, ⟨[], exit⟩, ?_, by simp⟩
    cases exit <;> exact ⟨rfl, List.mem_singleton_self _⟩

/-- What a composition does after it was left is nothing. -/
theorem mem_seq {first second : Runs Exit} {run : Run Exit} : run ∈ first.seq second ↔
    (run ∈ first ∧ run.exit ≠ none) ∨ ∃ before ∈ first, before.exit = none ∧ ∃ after ∈ second,
      run = ⟨before.trace ++ after.trace, after.exit⟩ := by
  constructor
  · rintro ⟨before, member, after, follows, rfl⟩
    cases exit : before.exit with
    | none =>
      rw [exit] at follows
      exact .inr ⟨before, member, exit, after, follows, rfl⟩
    | some taken =>
      rw [exit] at follows
      obtain ⟨empty, ends⟩ := follows
      rw [empty, List.append_nil, List.mem_singleton.mp ends, ← exit]
      exact .inl ⟨member, by simp [exit]⟩
  · rintro (⟨member, left⟩ | ⟨before, member, exit, after, follows, rfl⟩)
    · obtain ⟨trace, exit⟩ := run
      cases exit with
      | none => exact absurd rfl left
      | some taken =>
        exact ⟨⟨trace, some taken⟩, member, ⟨[], some taken⟩, ⟨rfl, List.mem_singleton_self _⟩,
          by simp⟩
    · exact ⟨before, member, after, by rw [exit]; exact follows, rfl⟩

theorem mem_seq_of_mem {first second : Runs Exit} {before : List Event} {after : Run Exit}
    (start : ⟨before, none⟩ ∈ first) (follows : after ∈ second) :
    ⟨before ++ after.trace, after.exit⟩ ∈ first.seq second :=
  mem_seq.mpr (.inr ⟨_, start, rfl, after, follows, rfl⟩)

theorem mem_lift {runs : Runs Abort} {trace : List Event} (member : ⟨trace, none⟩ ∈ runs) :
    ⟨trace, none⟩ ∈ runs.lift :=
  ⟨_, member, ⟨[], none⟩, ⟨rfl, List.mem_singleton_self _⟩, by rw [List.append_nil]⟩

theorem mem_done : ⟨[], none⟩ ∈ (done : Runs Exit) :=
  ⟨rfl, List.mem_singleton_self _⟩

theorem mem_emit (event : Event) : ⟨[event], none⟩ ∈ (emit event : Runs Exit) :=
  rfl

theorem mem_attempt : ⟨[], none⟩ ∈ attempt :=
  ⟨rfl, .head _⟩

theorem seq_assoc (first second third : Runs Exit) :
    (first.seq second).seq third = first.seq (second.seq third) := by
  ext run
  constructor
  · intro whole
    rcases mem_seq.mp whole with ⟨both, left⟩ | ⟨before, both, exit, after, follows, rfl⟩
    · rcases mem_seq.mp both with ⟨start, _⟩ | ⟨start, begins, exit, after, follows, rfl⟩
      · exact mem_seq.mpr (.inl ⟨start, left⟩)
      · exact mem_seq.mpr (.inr ⟨start, begins, exit, after, mem_seq.mpr (.inl ⟨follows, left⟩), rfl⟩)
    · rcases mem_seq.mp both with ⟨_, left⟩ | ⟨start, begins, exitStart, middle, inner, rfl⟩
      · exact absurd exit left
      · refine mem_seq.mpr (.inr ⟨start, begins, exitStart, _, mem_seq.mpr
          (.inr ⟨middle, inner, exit, after, follows, rfl⟩), ?_⟩)
        rw [List.append_assoc]
  · intro whole
    rcases mem_seq.mp whole with ⟨start, left⟩ | ⟨start, begins, exitStart, _, both, rfl⟩
    · exact mem_seq.mpr (.inl ⟨mem_seq.mpr (.inl ⟨start, left⟩), left⟩)
    · rcases mem_seq.mp both with ⟨inner, left⟩ | ⟨middle, inner, exit, after, follows, rfl⟩
      · exact mem_seq.mpr
          (.inl ⟨mem_seq.mpr (.inr ⟨start, begins, exitStart, _, inner, rfl⟩), left⟩)
      · refine mem_seq.mpr (.inr ⟨_, mem_seq.mpr (.inr ⟨start, begins, exitStart, middle, inner, rfl⟩),
          exit, after, follows, ?_⟩)
        rw [List.append_assoc]

theorem seq_union (first second third : Runs Exit) :
    first.seq (second ∪ third) = first.seq second ∪ first.seq third := by
  ext run
  simp only [Set.mem_union, mem_seq]
  grind

theorem seq_mono (first : Runs Exit) {second third : Runs Exit} (included : second ⊆ third) :
    first.seq second ⊆ first.seq third := by
  intro run member
  rw [mem_seq] at member ⊢
  exact member.imp_right fun ⟨before, start, exit, after, follows, equal⟩ =>
    ⟨before, start, exit, after, included follows, equal⟩

theorem lift_done : (done : Runs Abort).lift = done := by
  ext run
  constructor
  · rintro ⟨before, ⟨empty, exit⟩, after, follows, rfl⟩
    rw [List.mem_singleton.mp exit] at follows
    rw [empty]
    exact follows
  · intro member
    exact ⟨⟨[], none⟩, ⟨rfl, List.mem_singleton_self _⟩, run, member, rfl⟩

/-! ### Rounds of loops -/

/-- A round that ends its body goes on. -/
theorem mem_round {body next : Runs Leave} {exit : Option Leave} {shown : List Event}
    {after : Run Leave} (member : ⟨shown, exit⟩ ∈ body)
    (goesOn : exit = none ∨ exit = some .continued) (follows : after ∈ next) :
    ⟨shown ++ after.trace, after.exit⟩ ∈ body.round next := by
  rcases goesOn with rfl | rfl <;> exact ⟨_, member, _, follows, rfl⟩

/-- A loop may end after its test. -/
theorem mem_loop_of_test {test body step : Runs Leave} {tested : List Event}
    (ends : ⟨tested, none⟩ ∈ test) : ⟨tested, none⟩ ∈ loop test body step := by
  have skipped : ⟨[], none⟩ ∈ optional (body.round (step.seq (rounds test body step 0))) :=
    Set.mem_union_left _ mem_done
  have once := mem_seq_of_mem ends skipped
  rw [List.append_nil] at once
  exact Set.mem_iUnion.mpr ⟨1, once⟩

/-- A round of a loop that completes is followed by others. -/
theorem mem_loop_of_round {test body step : Runs Leave} {tested shown stepped : List Event}
    {after : Run Leave} (ends : ⟨tested, none⟩ ∈ test) (completes : ⟨shown, none⟩ ∈ body)
    (goesOn : ⟨stepped, none⟩ ∈ step) (others : after ∈ loop test body step) :
    ⟨tested ++ (shown ++ (stepped ++ after.trace)), after.exit⟩ ∈ loop test body step := by
  obtain ⟨count, member⟩ := Set.mem_iUnion.mp others
  have round : ⟨shown ++ (stepped ++ after.trace), after.exit⟩ ∈
      body.round (step.seq (rounds test body step count)) :=
    ⟨_, completes, _, mem_seq_of_mem goesOn member, rfl⟩
  exact Set.mem_iUnion.mpr ⟨count + 1, mem_seq_of_mem ends (Set.mem_union_right _ round)⟩

/-- A loop ends where its body breaks. -/
theorem mem_loop_of_break {test body step : Runs Leave} {tested shown : List Event}
    (ends : ⟨tested, none⟩ ∈ test) (breaks : ⟨shown, some .broke⟩ ∈ body) :
    ⟨tested ++ (shown ++ []), none⟩ ∈ loop test body step := by
  have round : ⟨shown ++ [], none⟩ ∈ body.round (step.seq (rounds test body step 0)) :=
    ⟨_, breaks, ⟨[], none⟩, mem_done, rfl⟩
  exact Set.mem_iUnion.mpr ⟨1, mem_seq_of_mem ends (Set.mem_union_right _ round)⟩

/-! ### How runs end -/

/-- Whether some run ends in the given way. -/
def EndsIn (runs : Runs Exit) (exit : Option Exit) : Prop :=
  ∃ run ∈ runs, run.exit = exit

@[simp]
theorem endsIn_ending {exits : List (Option Exit)} {exit : Option Exit} :
    (ending exits).EndsIn exit ↔ exit ∈ exits := by
  constructor
  · rintro ⟨run, ⟨_, member⟩, rfl⟩
    exact member
  · intro member
    exact ⟨⟨[], exit⟩, ⟨rfl, member⟩, rfl⟩

@[simp]
theorem endsIn_done {exit : Option Exit} : done.EndsIn exit ↔ exit = none := by
  simp [done]

@[simp]
theorem endsIn_leave {taken : Exit} {exit : Option Exit} :
    (leave taken).EndsIn exit ↔ exit = some taken := by
  simp [leave]

@[simp]
theorem endsIn_emit {event : Event} {exit : Option Exit} :
    (emit event).EndsIn exit ↔ exit = none := by
  simp [EndsIn, emit, eq_comm]

@[simp]
theorem endsIn_empty {exit : Option Exit} : ¬ EndsIn (∅ : Runs Exit) exit := by
  simp [EndsIn]

@[simp]
theorem endsIn_union {first second : Runs Exit} {exit : Option Exit} :
    EndsIn (first ∪ second) exit ↔ first.EndsIn exit ∨ second.EndsIn exit := by
  simp [EndsIn, or_and_right, exists_or]

/-- A composition ends as its second part does after some end of the first. -/
theorem endsIn_bind {first : Runs Exit} {next : Option Exit → Runs Other} {exit : Option Other} :
    (first.bind next).EndsIn exit ↔ ∃ middle, first.EndsIn middle ∧ (next middle).EndsIn exit := by
  constructor
  · rintro ⟨_, ⟨before, member, after, follows, rfl⟩, rfl⟩
    exact ⟨before.exit, ⟨before, member, rfl⟩, ⟨after, follows, rfl⟩⟩
  · rintro ⟨_, ⟨before, member, rfl⟩, ⟨after, follows, rfl⟩⟩
    exact ⟨_, ⟨before, member, after, follows, rfl⟩, rfl⟩

@[simp]
theorem endsIn_seq_none {first second : Runs Exit} :
    (first.seq second).EndsIn none ↔ first.EndsIn none ∧ second.EndsIn none := by
  simp [seq, endsIn_bind, Option.exists]

@[simp]
theorem endsIn_seq_some {first second : Runs Exit} {exit : Exit} :
    (first.seq second).EndsIn (some exit) ↔
      first.EndsIn (some exit) ∨ first.EndsIn none ∧ second.EndsIn (some exit) := by
  simp [seq, endsIn_bind, Option.exists, or_comm]

@[simp]
theorem endsIn_optional_none {runs : Runs Exit} : runs.optional.EndsIn none := by
  simp [optional]

@[simp]
theorem endsIn_optional_some {runs : Runs Exit} {exit : Exit} :
    runs.optional.EndsIn (some exit) ↔ runs.EndsIn (some exit) := by
  simp [optional]

@[simp]
theorem endsIn_lift_none {runs : Runs Abort} : runs.lift.EndsIn none ↔ runs.EndsIn none := by
  simp [lift, endsIn_bind, Option.exists]

/-- An expression is left only by being aborted. -/
theorem endsIn_lift_some {runs : Runs Abort} {exit : Leave} (ends : runs.lift.EndsIn (some exit)) :
    ∃ abort, exit = .aborted abort := by
  simp only [lift, endsIn_bind, Option.exists, endsIn_done, endsIn_leave] at ends
  grind

@[simp]
theorem endsIn_attempt_none : attempt.EndsIn none := by
  simp [attempt]

@[simp]
theorem endsIn_callee_none {returns : Bool} : (callee returns).EndsIn none ↔ returns = true := by
  cases returns <;> simp [callee]

/-- A round of a loop ends as what comes after it, by `break`, or by leaving the loop. -/
theorem endsIn_round {body next : Runs Leave} {exit : Option Leave}
    (ends : (body.round next).EndsIn exit) :
    next.EndsIn exit ∨ exit = none ∨
      ∃ taken, exit = some taken ∧ body.EndsIn exit ∧ taken ≠ .broke ∧ taken ≠ .continued := by
  obtain ⟨middle, bodyEnds, ends⟩ := endsIn_bind.mp ends
  split at ends
  · exact .inl ends
  · exact .inl ends
  · exact .inr (.inl (endsIn_done.mp ends))
  · next taken notContinued notBroke =>
    have equal := endsIn_leave.mp ends
    exact .inr (.inr ⟨taken, equal, equal ▸ bodyEnds, notBroke, notContinued⟩)

/-- Control goes on after a loop only if its test completes. -/
theorem endsIn_loop_none {test body step : Runs Leave} (ends : (loop test body step).EndsIn none) :
    test.EndsIn none := by
  obtain ⟨run, member, exit⟩ := ends
  obtain ⟨count, member⟩ := Set.mem_iUnion.mp member
  cases count with
  | zero =>
    have ends : (leave (Leave.aborted .running)).EndsIn none := ⟨run, member, exit⟩
    simp at ends
  | succ count =>
    have ends : (rounds test body step (count + 1)).EndsIn none := ⟨run, member, exit⟩
    rw [rounds, endsIn_seq_none] at ends
    exact ends.1

/-- A loop is left by its test, its step, or an exit of its body that leaves more than the loop. -/
theorem endsIn_loop_some {test body step : Runs Leave} {exit : Leave}
    (ends : (loop test body step).EndsIn (some exit)) :
    exit = .aborted .running ∨ test.EndsIn (some exit) ∨ step.EndsIn (some exit) ∨
      test.EndsIn none ∧ body.EndsIn (some exit) ∧ exit ≠ .broke ∧ exit ≠ .continued := by
  obtain ⟨run, member, exits⟩ := ends
  obtain ⟨count, member⟩ := Set.mem_iUnion.mp member
  have ends : (rounds test body step count).EndsIn (some exit) := ⟨run, member, exits⟩
  clear member exits
  induction count with
  | zero =>
    rw [rounds, endsIn_leave] at ends
    exact .inl (Option.some.inj ends)
  | succ count inductionHypothesis =>
    rw [rounds, endsIn_seq_some, endsIn_optional_some] at ends
    rcases ends with ends | ⟨tested, ends⟩
    · exact .inr (.inl ends)
    · rcases endsIn_round ends with ends | ends | ⟨taken, equal, ends, notBroke, notContinued⟩
      · rcases endsIn_seq_some.mp ends with ends | ⟨_, ends⟩
        · exact .inr (.inr (.inl ends))
        · exact inductionHypothesis ends
      · exact absurd ends (Option.some_ne_none exit)
      · obtain rfl := Option.some.inj equal
        exact .inr (.inr (.inr ⟨tested, ends, notBroke, notContinued⟩))

theorem endsIn_rescue {body handlers : Runs Leave} {exit : Option Leave}
    (ends : (body.rescue handlers).EndsIn exit) : body.EndsIn exit ∨ handlers.EndsIn exit := by
  obtain ⟨middle, bodyEnds, ends⟩ := endsIn_bind.mp ends
  split at ends
  · rcases endsIn_union.mp ends with ends | ends
    · exact .inl (endsIn_leave.mp ends ▸ bodyEnds)
    · exact .inr ends
  · exact .inl (endsIn_done.mp ends ▸ bodyEnds)
  · exact .inl (endsIn_leave.mp ends ▸ bodyEnds)

theorem endsIn_ensuring_none {body last : Runs Leave} (ends : (body.ensuring last).EndsIn none) :
    body.EndsIn none ∧ last.EndsIn none := by
  obtain ⟨pending, bodyEnds, ends⟩ := endsIn_bind.mp ends
  split at ends
  · obtain ⟨middle, lastEnds, ends⟩ := endsIn_bind.mp ends
    split at ends
    · obtain rfl := List.mem_singleton.mp (endsIn_ending.mp ends)
      exact ⟨bodyEnds, lastEnds⟩
    · exact absurd (endsIn_leave.mp ends) (by simp)
  · next unsettled =>
    obtain rfl := List.mem_singleton.mp (endsIn_ending.mp ends)
    exact absurd rfl unsettled

theorem endsIn_ensuring_some {body last : Runs Leave} {exit : Leave}
    (ends : (body.ensuring last).EndsIn (some exit)) :
    body.EndsIn (some exit) ∨ last.EndsIn (some exit) := by
  obtain ⟨pending, bodyEnds, ends⟩ := endsIn_bind.mp ends
  split at ends
  · obtain ⟨middle, lastEnds, ends⟩ := endsIn_bind.mp ends
    split at ends
    · exact .inl (List.mem_singleton.mp (endsIn_ending.mp ends) ▸ bodyEnds)
    · exact .inr (endsIn_leave.mp ends ▸ lastEnds)
  · exact .inl (List.mem_singleton.mp (endsIn_ending.mp ends) ▸ bodyEnds)

/-! ### Loose jumps -/

/-- Control is not left by a `break` or `continue` whose loop is further out. -/
def Contained (runs : Runs Leave) : Prop :=
  ¬ runs.EndsIn (some .broke) ∧ ¬ runs.EndsIn (some .continued)

theorem contained_lift (runs : Runs Abort) : runs.lift.Contained := by
  constructor
  · intro ends
    obtain ⟨_, equal⟩ := endsIn_lift_some ends
    cases equal
  · intro ends
    obtain ⟨_, equal⟩ := endsIn_lift_some ends
    cases equal

theorem contained_done : (done : Runs Leave).Contained := by
  simp [Contained]

theorem contained_emit (event : Event) : (emit event : Runs Leave).Contained := by
  simp [Contained]

theorem Contained.seq {first second : Runs Leave} (left : first.Contained)
    (right : second.Contained) : (first.seq second).Contained := by
  simp only [Contained, endsIn_seq_some] at *
  tauto

theorem Contained.union {first second : Runs Leave} (left : first.Contained)
    (right : second.Contained) : Contained (first ∪ second) := by
  simp only [Contained, endsIn_union] at *
  tauto

/-- A loop takes the jumps of its body. -/
theorem Contained.loop {test step : Runs Leave} (body : Runs Leave) (tested : test.Contained)
    (stepped : step.Contained) : (loop test body step).Contained := by
  constructor
  · intro ends
    rcases endsIn_loop_some ends with equal | ends | ends | ⟨_, _, different, _⟩
    · cases equal
    · exact tested.1 ends
    · exact stepped.1 ends
    · exact different rfl
  · intro ends
    rcases endsIn_loop_some ends with equal | ends | ends | ⟨_, _, _, different⟩
    · cases equal
    · exact tested.2 ends
    · exact stepped.2 ends
    · exact different rfl

theorem Contained.rescue {body handlers : Runs Leave} (tried : body.Contained)
    (handled : handlers.Contained) : (body.rescue handlers).Contained :=
  ⟨fun ends => (endsIn_rescue ends).elim tried.1 handled.1,
    fun ends => (endsIn_rescue ends).elim tried.2 handled.2⟩

theorem Contained.ensuring {body last : Runs Leave} (tried : body.Contained)
    (finished : last.Contained) : (body.ensuring last).Contained :=
  ⟨fun ends => (endsIn_ensuring_some ends).elim tried.1 finished.1,
    fun ends => (endsIn_ensuring_some ends).elim tried.2 finished.2⟩

end Runs

end PhpAudit.Execution
