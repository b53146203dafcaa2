/-
This file says when every run that completes a piece of code gives a variable a value. Whether some
part of a run does so does not depend on the other parts: if one completing run of the first part and
one of the second leave the variable alone, so does the run that is put together from them. What
holds of a composition is therefore told by its parts, in whatever order they are run.
-/

import PhpAudit.Proofs.Execution.Jumping
import PhpAudit.Proofs.Execution.Reading

namespace PhpAudit.Execution.Runs

variable {Exit : Type} {name : String}

/-- Every run that completes gives the variable a value. -/
def Writes (name : String) (runs : Runs Exit) : Prop :=
  ∀ run ∈ runs, run.exit = none → name ∈ written run.trace

/-- Every run that gets past the `switch` around the code gives the variable a value. -/
def WritesCase (name : String) (runs : Runs Leave) : Prop :=
  ∀ run ∈ runs, endsCase run.exit = true → name ∈ written run.trace

/-! ### Completing runs -/

section

variable {first second runs : Runs Exit}

/-- Code that no run completes does so trivially. -/
theorem writes_of_not_endsIn (never : ¬ runs.EndsIn none) : runs.Writes name :=
  fun run member completes => absurd ⟨run, member, completes⟩ never

@[simp]
theorem writes_seq : (first.seq second).Writes name ↔ first.Writes name ∨ second.Writes name := by
  constructor
  · intro both
    by_contra neither
    simp only [Writes, not_or, not_forall] at neither
    obtain ⟨⟨before, start, exit, unwritten⟩, after, follows, completes, unwrittenNext⟩ := neither
    have written := both _ (mem_seq.mpr (.inr ⟨before, start, exit, after, follows, rfl⟩)) completes
    rw [written_append] at written
    exact written.elim unwritten unwrittenNext
  · rintro writes run member completes
    rcases mem_seq.mp member with ⟨_, left⟩ | ⟨before, start, exit, after, follows, rfl⟩
    · exact absurd completes left
    · rw [written_append]
      exact writes.imp (· before start exit) (· after follows completes)

@[simp]
theorem writes_union : Writes name (first ∪ second) ↔ first.Writes name ∧ second.Writes name := by
  simp only [Writes, Set.mem_union, or_imp, forall_and]

@[simp]
theorem not_writes_done : ¬ Writes name (done : Runs Exit) := by
  intro writes
  simpa using writes _ mem_done rfl

@[simp]
theorem not_writes_optional : ¬ runs.optional.Writes name := by
  unfold optional
  simp

@[simp]
theorem not_writes_attempt : ¬ attempt.Writes name := by
  intro writes
  simpa using writes _ mem_attempt rfl

theorem writes_leave (exit : Exit) : (leave exit).Writes name :=
  writes_of_not_endsIn (by simp)

@[simp]
theorem writes_write (span : Span) : Writes name (emit (.write name span) : Runs Exit) := by
  rintro run rfl _
  simp

@[simp]
theorem writes_lift {runs : Runs Abort} : runs.lift.Writes name ↔ runs.Writes name := by
  constructor
  · intro writes run member completes
    obtain ⟨trace, exit⟩ := run
    obtain rfl : exit = none := completes
    exact writes _ (mem_lift member) rfl
  · rintro writes _ ⟨before, member, after, follows, rfl⟩ completes
    obtain ⟨trace, exit⟩ := before
    cases exit with
    | none =>
      rw [written_append]
      exact .inl (writes _ member rfl)
    | some abort =>
      obtain ⟨_, ends⟩ := follows
      rw [List.mem_singleton.mp ends] at completes
      cases completes

end

section

variable {test body step handlers last next : Runs Leave}

/-- A loop makes its test once at least. -/
theorem writes_loop (writes : test.Writes name) : (loop test body step).Writes name := by
  intro run member completes
  obtain ⟨count, member⟩ := Set.mem_iUnion.mp member
  cases count with
  | zero => exact writes_leave _ run member completes
  | succ count => exact writes_seq.mpr (.inl writes) run member completes

/-- The handlers run after a part of the body. -/
theorem writes_rescue (writes : body.Writes name) (handled : handlers.Writes name) :
    (body.rescue handlers).Writes name := by
  rintro _ ⟨before, member, after, follows, rfl⟩ completes
  rw [written_append]
  dsimp only at follows
  split at follows
  · rcases follows with ⟨_, ends⟩ | follows
    · rw [List.mem_singleton.mp ends] at completes
      cases completes
    · exact .inr (handled after follows completes)
  · next exit => exact .inl (writes before member exit)
  · obtain ⟨_, ends⟩ := follows
    rw [List.mem_singleton.mp ends] at completes
    cases completes

/-- The last clause runs after the body. -/
theorem writes_ensuring (writes : body.Writes name ∨ last.Writes name) :
    (body.ensuring last).Writes name := by
  rintro _ ⟨before, member, after, follows, rfl⟩ completes
  rw [written_append]
  dsimp only at follows
  split at follows
  · obtain ⟨final, ran, ending, follows, rfl⟩ := follows
    rw [written_append]
    dsimp only at follows
    split at follows
    · next exit =>
      rw [List.mem_singleton.mp follows.2] at completes
      exact writes.imp (· before member completes) fun writes => .inl (writes final ran exit)
    · rw [List.mem_singleton.mp follows.2] at completes
      cases completes
  · next unsettled =>
    rw [List.mem_singleton.mp follows.2] at completes
    rw [completes] at unsettled
    exact absurd rfl unsettled

end

/-! ### Runs that get past a `switch` -/

section

variable {first second runs next : Runs Leave}

theorem writesCase_of_not_endsCase (never : ¬ runs.EndsCase) : runs.WritesCase name :=
  fun run member passes => absurd ⟨_, passes, run, member, rfl⟩ never

/-- Code that does not jump is completed where it gets past the `switch`. -/
theorem Contained.writesCase (contained : runs.Contained) (writes : runs.Writes name) :
    runs.WritesCase name := by
  intro run member passes
  cases exit : run.exit with
  | none => exact writes run member exit
  | some taken =>
    rw [exit] at passes
    cases taken with
    | broke => exact absurd ⟨run, member, exit⟩ contained.1
    | continued => exact absurd ⟨run, member, exit⟩ contained.2
    | returned | aborted => cases passes

theorem writesCase_seq_left (writes : first.WritesCase name) :
    (first.seq second).WritesCase name := by
  intro run member passes
  rcases mem_seq.mp member with ⟨member, _⟩ | ⟨before, start, exit, after, _, rfl⟩
  · exact writes run member passes
  · rw [written_append]
    exact .inl (writes before start (by rw [exit]; rfl))

theorem writesCase_seq_right (contained : first.Contained) (writes : second.WritesCase name) :
    (first.seq second).WritesCase name := by
  intro run member passes
  rcases mem_seq.mp member with ⟨member, left⟩ | ⟨before, start, exit, after, follows, rfl⟩
  · -- the first part was left, but by no jump
    cases exit : run.exit with
    | none => exact absurd exit left
    | some taken =>
      rw [exit] at passes
      cases taken with
      | broke => exact absurd ⟨run, member, exit⟩ contained.1
      | continued => exact absurd ⟨run, member, exit⟩ contained.2
      | returned | aborted => cases passes
  · rw [written_append]
    exact .inr (writes after follows passes)

theorem writesCase_union :
    WritesCase name (first ∪ second) ↔ first.WritesCase name ∧ second.WritesCase name := by
  simp only [WritesCase, Set.mem_union, or_imp, forall_and]

/-- A round of a loop that writes before its end, or writes afterwards and does not break off. -/
theorem writes_round (writes : runs.WritesCase name ∨ next.Writes name ∧ ¬ runs.EndsIn (some .broke)) :
    (runs.round next).Writes name := by
  rintro _ ⟨before, member, after, follows, rfl⟩ completes
  rw [written_append]
  obtain ⟨trace, exit⟩ := before
  cases exit with
  | none => exact writes.imp (· _ member rfl) (·.1 after follows completes)
  | some taken =>
    cases taken with
    | broke =>
      exact writes.elim (fun writes => .inl (writes _ member rfl)) fun writes =>
        absurd ⟨_, member, rfl⟩ writes.2
    | continued => exact writes.imp (· _ member rfl) (·.1 after follows completes)
    | returned | aborted =>
      rw [List.mem_singleton.mp follows.2] at completes
      cases completes

end

end PhpAudit.Execution.Runs
