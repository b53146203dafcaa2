/-
This file says how runs get out of a `switch`. A body of the `switch` may end, or be left by `break`
or `continue`, which leave the `switch` and no more; control goes on after it in each of these cases.
-/

import PhpAudit.Proofs.Execution.Run

namespace PhpAudit.Execution

/-- Whether control goes on after a `switch` whose bodies ended so. -/
def endsCase : Option Leave → Bool
  | none | some .broke | some .continued => true
  | some .returned | some (.aborted _) => false

namespace Runs

variable {first second runs : Runs Leave}

/-- Some run gets past the `switch` around the code. -/
def EndsCase (runs : Runs Leave) : Prop :=
  ∃ exit, endsCase exit = true ∧ runs.EndsIn exit

/-- Some run leaves the case by a jump. -/
def Jumps (runs : Runs Leave) : Prop :=
  runs.EndsIn (some .broke) ∨ runs.EndsIn (some .continued)

theorem endsCase_iff : runs.EndsCase ↔ runs.EndsIn none ∨ runs.Jumps := by
  constructor
  · rintro ⟨_ | _ | _ | _ | _, passes, ends⟩
    · exact .inl ends
    · cases passes
    · exact .inr (.inl ends)
    · exact .inr (.inr ends)
    · cases passes
  · rintro (ends | ends | ends)
    · exact ⟨_, rfl, ends⟩
    · exact ⟨_, rfl, ends⟩
    · exact ⟨_, rfl, ends⟩

theorem Contained.not_jumps (contained : runs.Contained) : ¬ runs.Jumps :=
  fun jumps => jumps.elim contained.1 contained.2

/-- A composition gets past the `switch` by a jump of its first part, or through its second part. -/
theorem endsCase_seq :
    (first.seq second).EndsCase ↔ first.Jumps ∨ first.EndsIn none ∧ second.EndsCase := by
  simp only [endsCase_iff, Jumps, endsIn_seq_none, endsIn_seq_some]
  tauto

theorem jumps_seq :
    (first.seq second).Jumps ↔ first.Jumps ∨ first.EndsIn none ∧ second.Jumps := by
  simp only [Jumps, endsIn_seq_some]
  tauto

theorem not_jumps_lift (runs : Runs Abort) : ¬ runs.lift.Jumps :=
  (contained_lift runs).not_jumps

/-- A `switch` takes the jumps of its bodies. -/
theorem endsIn_round_done : (runs.round done).EndsIn none ↔ runs.EndsCase := by
  constructor
  · intro ends
    obtain ⟨_ | _ | _ | _ | _, bodyEnds, ends⟩ := endsIn_bind.mp ends
    · exact ⟨_, rfl, bodyEnds⟩
    · simp at ends
    · exact ⟨_, rfl, bodyEnds⟩
    · exact ⟨_, rfl, bodyEnds⟩
    · simp at ends
  · rintro ⟨_ | _ | _ | _ | _, passes, ends⟩
    · exact endsIn_bind.mpr ⟨_, ends, endsIn_done.mpr rfl⟩
    · cases passes
    · exact endsIn_bind.mpr ⟨_, ends, endsIn_done.mpr rfl⟩
    · exact endsIn_bind.mpr ⟨_, ends, endsIn_done.mpr rfl⟩
    · cases passes

theorem returned_of_round_done (ends : (runs.round done).EndsIn (some .returned)) :
    runs.EndsIn (some .returned) := by
  rcases endsIn_round ends with ends | equal | ⟨_, _, ends, _⟩
  · simp at ends
  · cases equal
  · exact ends

theorem contained_round {body next : Runs Leave} (contained : next.Contained) :
    (body.round next).Contained := by
  constructor
  · intro ends
    rcases endsIn_round ends with ends | equal | ⟨taken, equal, _, different, _⟩
    · exact contained.1 ends
    · cases equal
    · exact different (Option.some.inj equal).symm
  · intro ends
    rcases endsIn_round ends with ends | equal | ⟨taken, equal, _, _, different⟩
    · exact contained.2 ends
    · cases equal
    · exact different (Option.some.inj equal).symm

end Runs

end PhpAudit.Execution
