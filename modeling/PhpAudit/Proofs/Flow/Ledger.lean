/-
This file follows what a walk has reported about undefined variables. The number of such reports
never goes down, so if it is the same before and after some steps, none of the steps added one. Most
steps leave both this number and the scope alone.
-/

import PhpAudit.Flow.Body
import PhpAudit.Proofs.Flow.Joining

namespace PhpAudit

/-- The reports about undefined variables so far, and whether there may be more. -/
structure Ledger where
  undefined : Nat
  enabled : Bool
  tolerates : Bool

namespace Walk

def ledger (walk : Walk) : Ledger where
  undefined := walk.report.issues.countP (·.check == "undefined")
  enabled := walk.report.enabled
  tolerates := walk.toleratesUndefined

/-- Undefined variables are reported. -/
def Reporting (walk : Walk) : Prop :=
  walk.ledger.enabled = true ∧ walk.ledger.tolerates = false

/-- The steps report no undefined variable although they could. -/
def Passes (steps : Walk → Walk) (walk : Walk) : Prop :=
  walk.Reporting ∧ (steps walk).ledger.undefined = walk.ledger.undefined

end Walk

/-- The steps take no report back and do not stop reporting. -/
structure Steady (steps : Walk → Walk) : Prop where
  grows : ∀ walk, walk.ledger.undefined ≤ (steps walk).ledger.undefined
  reporting : ∀ walk, walk.Reporting → (steps walk).Reporting

/-- The steps change neither the reports about undefined variables nor the scope. -/
def Idle (steps : Walk → Walk) : Prop :=
  ∀ walk, (steps walk).scope = walk.scope ∧ (steps walk).ledger = walk.ledger

theorem Idle.comp {before after : Walk → Walk} (first : Idle before) (second : Idle after) :
    Idle fun walk => after (before walk) :=
  fun walk => ⟨(second _).1.trans (first walk).1, (second _).2.trans (first walk).2⟩

namespace Steady

variable {before after steps : Walk → Walk}

theorem of_ledger (same : ∀ walk, (steps walk).ledger = walk.ledger) : Steady steps where
  grows walk := Nat.le_of_eq (by rw [same])
  reporting walk reporting := by
    unfold Walk.Reporting at *
    rwa [same]

theorem of_idle (idle : Idle steps) : Steady steps :=
  .of_ledger fun walk => (idle walk).2

theorem comp (first : Steady before) (second : Steady after) :
    Steady fun walk => after (before walk) where
  grows walk := Nat.le_trans (first.grows walk) (second.grows _)
  reporting walk reporting := second.reporting _ (first.reporting walk reporting)

end Steady

/-- Steps that pass as a whole pass one after the other. -/
theorem Walk.Passes.split {before after : Walk → Walk} {walk : Walk} (first : Steady before)
    (second : Steady after) (passes : Passes (fun walk => after (before walk)) walk) :
    Passes before walk ∧ Passes after (before walk) := by
  obtain ⟨reporting, equal⟩ := passes
  have left := first.grows walk
  have right := second.grows (before walk)
  dsimp only at equal
  exact ⟨⟨reporting, by omega⟩, ⟨first.reporting walk reporting, by omega⟩⟩

/-! ### Steps that leave the reports alone -/

namespace Walk

variable (env : Env) (walk : Walk)

theorem check_issueAt (source : Source) (span : Span) (severity : Severity)
    (check message : String) : (source.issueAt span severity check message).check = check := rfl

/-- An issue of another kind does not count. -/
theorem ledger_issue {check : String} (other : check ≠ "undefined") (span : Span)
    (severity : Severity) (message : String) :
    (walk.issue env span severity check message).ledger = walk.ledger := by
  unfold issue Report.add
  split
  · simp [ledger, check_issueAt, other]
  · rfl

/-- An undefined variable is reported. -/
theorem undefined_issue (reporting : walk.Reporting) (span : Span) (severity : Severity)
    (message : String) :
    (walk.issue env span severity "undefined" message).ledger.undefined =
      walk.ledger.undefined + 1 := by
  have enabled : walk.report.enabled = true := reporting.1
  unfold issue Report.add
  rw [if_pos enabled]
  simp [ledger, check_issueAt]

theorem steady_issue (span : Span) (severity : Severity) (check message : String) :
    Steady fun walk => walk.issue env span severity check message where
  grows walk := by
    unfold issue Report.add
    split
    · simp [ledger]
    · exact Nat.le_refl _
  reporting walk reporting := by
    unfold issue Report.add
    split
    · exact reporting
    · exact reporting

theorem idle_impure : Idle impure := fun _ => ⟨rfl, rfl⟩

theorem idle_share (name : String) : Idle (share name) := fun _ => ⟨rfl, rfl⟩

theorem idle_track (name : String) (span : Span) : Idle (track env name span) := by
  intro walk
  unfold track
  split
  · exact ⟨rfl, rfl⟩
  · split <;> exact ⟨rfl, rfl⟩

theorem idle_leave (exits : Exits) : Idle (·.leave exits) := by
  intro walk
  refine ⟨?_, rfl⟩
  unfold leave mapBlock Block.leave scope
  dsimp only
  split <;> rfl

theorem idle_leaveByCallee (exits : Exits) : Idle (leaveByCallee env exits) := by
  intro walk
  unfold leaveByCallee
  split
  · exact idle_leave exits walk
  · exact ⟨rfl, rfl⟩

theorem idle_checkDiscard (name : String) (span : Span) : Idle (checkDiscard env name span) := by
  intro walk
  unfold checkDiscard
  split
  · exact ⟨rfl, walk.ledger_issue env (by decide) ..⟩
  · exact ⟨rfl, rfl⟩

theorem idle_checkDeadCode (stmt : Stmt) : Idle (checkDeadCode env stmt) := by
  intro walk
  unfold checkDeadCode
  extract_lets exempt
  split
  · exact ⟨rfl, rfl⟩
  · exact ⟨rfl, ledger_issue env _ (by decide) ..⟩

theorem ledger_flushUnused : (walk.flushUnused env).ledger = walk.ledger := by
  have flushed (step : Walk → Span × String → Walk)
      (kept : ∀ walk write, (step walk write).ledger = walk.ledger)
      (writes : List (Span × String)) (walk : Walk) :
      (writes.foldl step walk).ledger = walk.ledger := by
    induction writes generalizing walk with
    | nil => rfl
    | cons write rest inductionHypothesis => rw [List.foldl_cons, inductionHypothesis, kept]
  unfold flushUnused
  split
  · rfl
  · refine flushed _ (fun walk write => ?_) _ walk
    exact ledger_issue env walk (by decide) ..

theorem ledger_dropMarkers (markers : List String) :
    (walk.dropMarkers markers).ledger = walk.ledger := by
  unfold dropMarkers
  induction markers generalizing walk with
  | nil => rfl
  | cons marker rest inductionHypothesis =>
    rw [List.foldl_cons, inductionHypothesis]
    split <;> rfl

end Walk

namespace Flow

variable (env : Env)

theorem idle_checkForeachKey (key : Option Expr) (value : Expr) :
    Idle (checkForeachKey env key value) := by
  intro walk
  unfold checkForeachKey
  split
  · exact ⟨rfl, rfl⟩
  · split
    · split
      · exact ⟨rfl, rfl⟩
      · exact ⟨rfl, Walk.ledger_issue env _ (by decide) ..⟩
    · exact ⟨rfl, rfl⟩

theorem idle_checkFinally (body : List Stmt) (tried : Block) (catches : List (List Stmt × Block))
    (final : List Stmt) (finalSpan : Span) (finished : Block) :
    Idle (checkFinally env body tried catches final finalSpan finished) := by
  intro walk
  unfold checkFinally
  split
  · exact ⟨rfl, walk.ledger_issue env (by decide) ..⟩
  · split
    · split
      · dsimp only
        induction overridden body tried catches generalizing walk with
        | nil => exact ⟨rfl, rfl⟩
        | cons point rest inductionHypothesis =>
          rw [List.foldl_cons]
          obtain ⟨scope, ledger⟩ := inductionHypothesis
            (walk.issue env point.span .error "deadCode" _)
          exact ⟨scope, ledger.trans (walk.ledger_issue env (by decide) ..)⟩
      · exact ⟨rfl, rfl⟩
    · exact ⟨rfl, rfl⟩

/-- Only `extract` makes undefined variables tolerable. -/
theorem idle_tolerate {function : String} (other : function ≠ "\\extract") :
    Idle (tolerate function) := by
  intro walk
  unfold tolerate
  split
  · exact ⟨rfl, rfl⟩
  · exact absurd rfl other
  · exact ⟨rfl, rfl⟩

end Flow

end PhpAudit
