/-
This file is about recursions that mark what they come to, in a state that they pass along, and that
go on only from what was not marked before. Such a recursion ends although neither its argument nor
anything else shrinks: with every nested step fewer marks remain to be set.

The recursion is given as a computation with a bound on the nesting, which fails beyond the bound.
Two computations settle if both finish from the state, with the same answer and the same marks. If
one step of the recursion settles whenever the steps nested in it do, then any two bounds above the
number of remaining marks settle.
-/

import Mathlib.Order.Basic
import Mathlib.Order.Nat

namespace PhpAudit

/-! ### Marks -/

section

variable {State Mark : Type} (marked : State → Mark → Bool)

/-- No mark is lost. -/
def Grows (first second : State) : Prop :=
  ∀ mark, marked first mark = true → marked second mark = true

/-- The number of marks that can be set and are not. -/
def remaining (marks : List Mark) (state : State) : Nat :=
  marks.countP fun mark => !marked state mark

variable {marked} {first second third : State} {marks : List Mark}

theorem Grows.refl (state : State) : Grows marked state state :=
  fun _ set => set

theorem Grows.trans (left : Grows marked first second) (right : Grows marked second third) :
    Grows marked first third :=
  fun mark set => right mark (left mark set)

theorem Grows.remaining_le (grows : Grows marked first second) :
    remaining marked marks second ≤ remaining marked marks first := by
  refine List.countP_mono_left fun mark _ unset => ?_
  cases set : marked first mark with
  | false => rfl
  | true => simp [grows mark set] at unset

theorem Grows.remaining_lt (grows : Grows marked first second) {mark : Mark} (member : mark ∈ marks)
    (before : marked first mark = false) (after : marked second mark = true) :
    remaining marked marks second < remaining marked marks first := by
  obtain ⟨left, right, rfl⟩ := List.append_of_mem member
  have fewerLeft : remaining marked left second ≤ remaining marked left first :=
    grows.remaining_le
  have fewerRight : remaining marked right second ≤ remaining marked right first :=
    grows.remaining_le
  have split (state : State) : remaining marked (left ++ mark :: right) state =
      remaining marked left state + (remaining marked right state +
        if marked state mark = true then 0 else 1) := by
    simp only [remaining, List.countP_append, List.countP_cons]
    cases marked state mark <;> rfl
  rw [split, split, before, after, if_pos rfl, if_neg Bool.false_ne_true]
  omega

theorem remaining_le (state : State) : remaining marked marks state ≤ marks.length :=
  List.countP_le_length

end

/-! ### Computations that settle -/

section

variable {State Mark Answer Other : Type}

/-- From `state` both computations finish alike: with one answer, for which `post` holds, and in one
state, in which no mark is lost. -/
def Settles (marked : State → Mark → Bool) (first second : StateT State Option Answer)
    (state : State) (post : Answer → Prop) : Prop :=
  ∃ answer next, first.run state = some (answer, next) ∧ second.run state = some (answer, next) ∧
    Grows marked state next ∧ post answer

variable {marked : State → Mark → Bool} {first second : StateT State Option Answer}
  {state : State} {post : Answer → Prop}

namespace Settles

theorem pure {answer : Answer} (holds : post answer) :
    Settles marked (pure answer) (pure answer) state post :=
  ⟨answer, state, rfl, rfl, .refl state, holds⟩

theorem bind {between : Answer → Prop} {after : Other → Prop}
    {firstRest secondRest : Answer → StateT State Option Other}
    (settles : Settles marked first second state between)
    (rest : ∀ answer next, Grows marked state next → between answer →
      Settles marked (firstRest answer) (secondRest answer) next after) :
    Settles marked (first >>= firstRest) (second >>= secondRest) state after := by
  obtain ⟨answer, next, firstRun, secondRun, grows, holds⟩ := settles
  obtain ⟨result, last, firstLast, secondLast, growsOn, holdsOn⟩ := rest answer next grows holds
  refine ⟨result, last, ?_, ?_, grows.trans growsOn, holdsOn⟩
  · rw [StateT.run_bind, firstRun]
    exact firstLast
  · rw [StateT.run_bind, secondRun]
    exact secondLast

theorem map {after : Other → Prop} (image : Answer → Other)
    (settles : Settles marked first second state post)
    (holds : ∀ answer, post answer → after (image answer)) :
    Settles marked (image <$> first) (image <$> second) state after := by
  obtain ⟨answer, next, firstRun, secondRun, grows, holdsBefore⟩ := settles
  refine ⟨image answer, next, ?_, ?_, grows, holds answer holdsBefore⟩
  · rw [StateT.run_map, firstRun]
    rfl
  · rw [StateT.run_map, secondRun]
    rfl

theorem get_bind {firstRest secondRest : State → StateT State Option Answer}
    (rest : Settles marked (firstRest state) (secondRest state) state post) :
    Settles marked (get >>= firstRest) (get >>= secondRest) state post :=
  rest

theorem modify_bind {change : State → State}
    {firstRest secondRest : PUnit → StateT State Option Answer}
    (grows : Grows marked state (change state))
    (rest : Settles marked (firstRest ⟨⟩) (secondRest ⟨⟩) (change state) post) :
    Settles marked (modify change >>= firstRest) (modify change >>= secondRest) state post := by
  obtain ⟨answer, next, firstRun, secondRun, growsOn, holds⟩ := rest
  exact ⟨answer, next, firstRun, secondRun, grows.trans growsOn, holds⟩

end Settles

/-! ### Recursions -/

variable {Input : Type} {marks : List Mark}

/-- The marks that remain bound the nesting of the steps. -/
theorem settles_nested
    (step : (Input → StateT State Option Answer) → Input → StateT State Option Answer)
    (nested : Nat → Input → StateT State Option Answer) (pre : Input → Prop)
    (unfolds : ∀ fuel input, nested (fuel + 1) input = step (nested fuel) input)
    (stepped : ∀ first second state input, pre input →
      (∀ later, remaining marked marks later < remaining marked marks state → ∀ input, pre input →
        Settles marked (first input) (second input) later post) →
      Settles marked (step first input) (step second input) state post)
    {fuel more : Nat} {state : State} (input : Input) (allowed : pre input)
    (enough : remaining marked marks state < fuel)
    (enoughToo : remaining marked marks state < more) :
    Settles marked (nested fuel input) (nested more input) state post := by
  induction fuel generalizing more state input with
  | zero => exact absurd enough (Nat.not_lt_zero _)
  | succ fuel inductionHypothesis =>
    obtain ⟨more, rfl⟩ := Nat.exists_eq_succ_of_ne_zero (Nat.ne_zero_of_lt enoughToo)
    rw [unfolds, Nat.succ_eq_add_one, unfolds]
    refine stepped _ _ state input allowed fun later fewer other allowedOther => ?_
    exact inductionHypothesis other allowedOther (by omega) (by omega)

/-- With more than the remaining marks as a bound, the recursion finishes, always alike. -/
theorem exists_of_settles {bound : Nat} (computation : Nat → StateT State Option Answer)
    (settles : ∀ fuel, bound ≤ fuel →
      Settles marked (computation bound) (computation fuel) state post) :
    ∃ answer next, post answer ∧
      ∀ fuel, bound ≤ fuel → (computation fuel).run state = some (answer, next) := by
  obtain ⟨answer, next, finished, -, -, holds⟩ := settles bound le_rfl
  refine ⟨answer, next, holds, fun fuel enough => ?_⟩
  obtain ⟨other, last, finishedToo, same, -, -⟩ := settles fuel enough
  rw [finished, Option.some.injEq] at finishedToo
  rw [finishedToo]
  exact same

end

end PhpAudit
