/-
This file says what the single steps of a walk do to what it knows about variables. Most steps visit
no variable. Those that read, assign or bind one make a single visit; what was noted of the variable
before is read by it or not, and it has a value afterwards or not, as the kind of the visit says.
-/

import PhpAudit.Proofs.Flow.Seeing

namespace PhpAudit

namespace Walk

variable {env : Env} {walk : Walk}

/-! ### Writes that are not read yet -/

theorem pending_untrack (env : Env) (walk : Walk) (name other : String) :
    (walk.untrack env name).pending other = if name = other then [] else walk.pending other := by
  unfold pending untrack
  dsimp only
  rw [Std.TreeMap.getD_erase]
  simp

theorem not_mem_pending_untrack (env : Env) (walk : Walk) (name : String) (span : Span) :
    span ∉ (walk.untrack env name).pending name := by
  simp [pending_untrack]

theorem pending_untrack_subset (env : Env) (walk : Walk) (name other : String) :
    (walk.untrack env name).pending other ⊆ walk.pending other := by
  rw [pending_untrack]
  split
  · exact List.nil_subset _
  · exact List.Subset.refl _

/-- A write is noted outside of loops only. -/
theorem of_mem_pending_track {name other : String} {noted span : Span}
    (member : span ∈ (walk.track env name noted).pending other) :
    span ∈ walk.pending other ∨
      walk.block.insideLoop = false ∧ name = other ∧ noted = span := by
  unfold track at member
  split at member
  · exact .inl (pending_untrack_subset env walk name other member)
  · split at member
    · exact .inl member
    · next outside =>
      unfold pending at member
      dsimp only at member
      rw [Std.TreeMap.getD_insert] at member
      by_cases equal : name = other
      · subst equal
        rw [if_pos Std.ReflCmp.compare_self, List.mem_append, List.mem_singleton] at member
        exact member.imp id fun equal => ⟨Bool.eq_false_of_not_eq_true outside, rfl, equal.symm⟩
      · rw [if_neg (by simpa using equal)] at member
        exact .inl member

/-! ### Steps that visit no variable -/

theorem Knows.mapScope {name : String} {change : Scope → Scope}
    (has : (change walk.scope).mayHave name = true) : (walk.mapScope change).Knows name :=
  .inr (.inr has)

end Walk

namespace Eases

variable {source : Source} {env : Env}

theorem of_eq {before after : Walk} (scope : after.scope = before.scope)
    (inLoop : after.block.insideLoop = before.block.insideLoop)
    (unread : after.unread = before.unread)
    (tolerates : after.toleratesUndefined = before.toleratesUndefined)
    (report : after.report = before.report) : Eases source before after where
  scope := scope ▸ .refl _
  inLoop := inLoop
  pending name := by
    unfold Walk.pending
    rw [unread]
    exact List.Subset.refl _
  tolerates tolerated := tolerates.trans tolerated
  quiet _ := report
  raises raised := by
    unfold Walk.Raised at *
    rwa [report] at raised

theorem impure (walk : Walk) : Eases source walk walk.impure :=
  of_eq rfl rfl rfl rfl rfl

theorem share (name : String) (walk : Walk) : Eases source walk (walk.share name) :=
  of_eq rfl rfl rfl rfl rfl

theorem shareSlot (byRef : Bool) (value : Expr) (walk : Walk) :
    Eases source walk (Flow.shareSlot byRef value walk) := by
  unfold Flow.shareSlot
  split
  · exact .share _ walk
  · exact .refl walk

/-- The exits of a block are not about variables. -/
theorem setExits (walk : Walk) (exits : Exits) :
    Eases source walk (walk.mapBlock fun block => { block with exits }) :=
  of_eq rfl rfl rfl rfl rfl

theorem leave (exits : Exits) (walk : Walk) : Eases source walk (walk.leave exits) := by
  unfold Walk.leave Walk.mapBlock Block.leave
  dsimp only
  split <;> exact of_eq rfl rfl rfl rfl rfl

theorem leaveByCallee (exits : Exits) (walk : Walk) :
    Eases source walk (walk.leaveByCallee env exits) := by
  unfold Walk.leaveByCallee
  split
  · exact .leave exits walk
  · exact .refl walk

theorem leaveByFound (found : Option FoundMethod) (walk : Walk) :
    Eases source walk (walk.leaveByFound env found) := by
  unfold Walk.leaveByFound
  split
  · exact .leaveByCallee _ walk
  · exact .refl walk

theorem untrack (name : String) (walk : Walk) : Eases source walk (walk.untrack env name) where
  scope := .refl _
  inLoop := rfl
  pending := walk.pending_untrack_subset env name
  tolerates := id
  quiet _ := rfl
  raises := id

theorem mapScope {walk : Walk} {change : Scope → Scope}
    (widens : walk.scope.Widens (change walk.scope)) :
    Eases source walk (walk.mapScope change) where
  scope := widens
  inLoop := rfl
  pending _ := List.Subset.refl _
  tolerates := id
  quiet _ := rfl
  raises := id

theorem tolerate (function : String) (walk : Walk) :
    Eases source walk (Flow.tolerate function walk) := by
  unfold Flow.tolerate
  split
  · exact of_eq rfl rfl rfl rfl rfl
  · exact
      { scope := .refl _, inLoop := rfl, pending := fun _ => List.Subset.refl _,
        tolerates := fun _ => rfl, quiet := fun _ => rfl, raises := id }
  · exact .refl walk

theorem assignOwnProperty (types : TypeSet) (object : Expr) (name : Option String) (walk : Walk) :
    Eases source walk (Flow.assignOwnProperty env types object name walk) := by
  unfold Flow.assignOwnProperty
  split
  · split
    · exact of_eq rfl rfl rfl rfl rfl
    · exact .refl walk
  · exact .refl walk

theorem assignOwnStatic (types : TypeSet) (ref : ClassRef) (name : Option String) (walk : Walk) :
    Eases source walk (Flow.assignOwnStatic env types ref name walk) := by
  unfold Flow.assignOwnStatic
  split
  · split
    · exact of_eq rfl rfl rfl rfl rfl
    · exact .refl walk
  · exact .refl walk

end Eases

/-! ### Reports -/

/-- The report of one issue, which counts only if reports are taken. -/
theorem Walk.raised_issue {env : Env} {walk : Walk} {span place : Span} {severity : Severity}
    {check message name : String}
    (raised : (walk.issue env span severity check message).Raised env.source name place) :
    walk.Raised env.source name place ∨
      env.source.issueAt span severity check message = env.source.undefinedAt name place := by
  unfold Raised issue Report.add at *
  split at raised
  · rcases List.mem_append.mp raised with raised | raised
    · exact .inl raised
    · exact .inr (List.mem_singleton.mp raised).symm
  · exact .inl raised

theorem Walk.quiet_issue {env : Env} {walk : Walk} (span : Span) (severity : Severity)
    (check message : String) (silent : walk.report.enabled = false) :
    (walk.issue env span severity check message).report = walk.report := by
  unfold issue Report.add
  rw [if_neg (by simp [silent])]

namespace Eases

variable {env : Env}

/-- Issues about something else than a variable that no path defines. -/
theorem issue {severity : Severity} {check message : String}
    (other : ∀ name : String, severity = .error → check = "undefined" →
      message ≠ s!"Undefined variable: {name}") (span : Span) (walk : Walk) :
    Eases env.source walk (walk.issue env span severity check message) where
  scope := .refl _
  inLoop := rfl
  pending _ := List.Subset.refl _
  tolerates := id
  quiet := Walk.quiet_issue span severity check message
  raises raised := (Walk.raised_issue raised).resolve_right
    (env.source.issueAt_ne_undefinedAt other span _ _)

theorem checkDiscard (name : String) (span : Span) (walk : Walk) :
    Eases env.source walk (walk.checkDiscard env name span) := by
  unfold Walk.checkDiscard
  split
  · exact .issue (fun _ _ other => absurd other (by decide)) span walk
  · exact .refl walk

theorem checkArrayAccess (base : Expr) (span : Span) (walk : Walk) :
    Eases env.source walk (walk.checkArrayAccess env base span) := by
  unfold Walk.checkArrayAccess
  split
  · dsimp only
    split
    · exact .refl walk
    · exact .issue (fun _ _ other => absurd other (by decide)) span walk
  · exact .refl walk

theorem checkDeadCode (stmt : Stmt) (walk : Walk) :
    Eases env.source walk (walk.checkDeadCode env stmt) := by
  unfold Walk.checkDeadCode
  extract_lets exempt
  split
  · exact .refl walk
  · have marked : Eases env.source walk
        (walk.mapBlock fun block => { block with deadCodeReported := true }) :=
      of_eq rfl rfl rfl rfl rfl
    exact marked.trans (.issue (fun _ _ other => absurd other (by decide)) stmt.span _)

theorem checkCaseBreak (span : Span) (rest : List Case) (walk : Walk) :
    Eases env.source walk (Flow.checkCaseBreak env span rest walk) := by
  unfold Flow.checkCaseBreak
  split
  · split
    · exact .issue (fun _ _ other => absurd other (by decide)) span walk
    · exact .refl walk
  · exact .refl walk

theorem checkForeachKey (key : Option Expr) (value : Expr) (walk : Walk) :
    Eases env.source walk (Flow.checkForeachKey env key value walk) := by
  unfold Flow.checkForeachKey
  split
  · exact .refl walk
  · split
    · next keyName valueName _ _ =>
      split
      · exact .refl walk
      · exact (Eases.untrack keyName walk).trans
          (.issue (fun _ _ other => absurd other (by decide)) _ _)
    · exact .refl walk

theorem checkFinally (body : List Stmt) (tried : Block) (catches : List (List Stmt × Block))
    (final : List Stmt) (finalSpan : Span) (finished : Block) (walk : Walk) :
    Eases env.source walk
      (Flow.checkFinally env body tried catches final finalSpan finished walk) := by
  unfold Flow.checkFinally
  split
  · exact .issue (fun _ _ other => absurd other (by decide)) finalSpan walk
  · split
    · split
      · refine .foldl (fun walk (point : ExitPoint) => ?_) _ walk
        exact .issue (fun _ _ other => absurd other (by decide)) point.span walk
      · exact .refl walk
    · exact .refl walk

/-- The end of a body reports unused variables only. -/
theorem flushUnused (walk : Walk) : Eases env.source walk (walk.flushUnused env) := by
  have emptied (walk : Walk) : Eases env.source walk { walk with unread := {} } :=
    { scope := .refl _, inLoop := rfl
      pending := fun name => by
        unfold Walk.pending
        simp
      tolerates := id, quiet := fun _ => rfl, raises := id }
  unfold Walk.flushUnused
  dsimp only
  split
  · exact emptied walk
  · refine (Eases.foldl (fun walk (write : Span × String) => ?_) _ walk).trans (emptied _)
    exact .issue (fun _ _ other => absurd other (by decide)) write.1 walk

end Eases

/-! ### Steps that visit one variable -/

namespace Gathers

variable {source : Source} {env : Env} {walk : Walk}

/-- A variable is only looked at: what was noted before counts as read. -/
theorem untrack {visit : Visit} (alone : visit.known = []) (idle : visit.gains = false)
    (walk : Walk) : Gathers source [visit] walk (walk.untrack env visit.name) := by
  refine of_visit alone (.refl _) rfl id (fun _ => rfl) (fun {name span} member => ?_)
    (fun gains => absurd (idle.symm.trans gains) Bool.false_ne_true) fun raised => .inl raised
  refine .inl ⟨Walk.pending_untrack_subset env walk visit.name name member, ?_⟩
  intro other present named
  obtain rfl := List.mem_singleton.mp present
  subst named
  exact absurd member (walk.not_mem_pending_untrack env other.name span)

/-- A variable is given a value that need not be read. -/
theorem bound {name : String} (span : Span) {bound : Walk} (eases : Eases source walk bound)
    (known : bound.Knows name) :
    Gathers source [{ name, span, use := .used }] walk (bound.untrack env name) := by
  have untracked : Eases source bound (bound.untrack env name) := .untrack name bound
  have both := eases.trans untracked
  refine of_visit rfl both.scope both.inLoop both.tolerates both.quiet
    (fun {other place} member => ?_) (fun _ => known) fun raised => .inl (both.raises raised)
  refine .inl ⟨both.pending other member, ?_⟩
  intro visit present named
  obtain rfl := List.mem_singleton.mp present
  subst named
  exact absurd member (bound.not_mem_pending_untrack env name place)

/--
A read: a variable that no path defines is reported, and has a value for the walk then. Where the
variable is known the range does not matter.
-/
theorem read_at {name : String} {span place : Span} (walk : Walk)
    (spot : place = span ∨ walk.Knows name) :
    Gathers env.source [{ name, span := place, use := .used }] walk (walk.read env name span) := by
  let noted := (walk.checkDiscard env name span).untrack env name
  have eased : Eases env.source walk noted :=
    (Eases.checkDiscard name span walk).trans (.untrack name _)
  -- what comes after the note adds the variable to the scope, unless it is known
  have finish {after : Walk} (scope : noted.scope.Widens after.scope)
      (inLoop : after.block.insideLoop = noted.block.insideLoop)
      (same : after.unread = noted.unread)
      (tolerates : after.toleratesUndefined = noted.toleratesUndefined)
      (quiet : noted.report.enabled = false → after.report = noted.report)
      (known : after.Knows name)
      (raises : ∀ {other spot}, after.Raised env.source other spot →
        noted.Raised env.source other spot ∨
          env.source.undefinedAt name span = env.source.undefinedAt other spot ∧
            ¬ walk.Knows other) :
      Gathers env.source [{ name, span := place, use := .used }] walk after := by
    refine of_visit rfl (eased.scope.trans scope) (inLoop.trans eased.inLoop)
      (fun tolerated => tolerates.trans (eased.tolerates tolerated)) (fun silent => ?_)
      (fun {other spot} member => ?_) (fun _ => known) fun raised => ?_
    · have still := eased.quiet silent
      exact (quiet (still ▸ silent)).trans still
    · have member : spot ∈ noted.pending other := by
        unfold Walk.pending at *
        rwa [same] at member
      refine .inl ⟨eased.pending other member, fun visit present named => ?_⟩
      obtain rfl := List.mem_singleton.mp present
      subst named
      exact absurd member (Walk.not_mem_pending_untrack env _ name spot)
    · rcases raises raised with raised | ⟨same, unknown⟩
      · exact .inl (eased.raises raised)
      · rcases spot with rfl | known
        · exact .inr ⟨same, rfl, unknown⟩
        · obtain rfl := Source.name_eq_of_undefinedAt_eq same
          exact absurd known unknown
  have added (after : Walk) (types : TypeSet) :
      (after.mapScope (·.add name types true)).Knows name := by
    refine .mapScope ?_
    rw [Scope.mayHave_add, beq_self_eq_true, Bool.true_or]
  unfold Walk.read
  dsimp only
  split
  · next defined =>
    refine finish (.refl _) rfl rfl rfl (fun _ => rfl) ?_ .inl
    simp only [Bool.or_eq_true] at defined
    rcases defined with (defined | super) | tolerated
    · exact .inr (.inr (Scope.mayHave_of_has defined))
    · exact .inl super
    · exact .inr (.inl tolerated)
  · next undefined =>
    split
    · exact finish (.add _ name _ true) rfl rfl rfl (fun _ => rfl) (added _ _) .inl
    · unfold Walk.readMissing
      dsimp only
      split
      · refine finish (.add _ name _ true) rfl rfl rfl (Walk.quiet_issue span _ _ _) (added _ _)
          fun raised => .inl ((Walk.raised_issue raised).resolve_right ?_)
        exact env.source.issueAt_ne_undefinedAt (fun _ error => by cases error) span _ _
      · next impossible =>
        refine finish (.add _ name _ true) rfl rfl rfl (Walk.quiet_issue span _ _ _) (added _ _)
          fun {other spot} raised => ?_
        refine (Walk.raised_issue raised).imp_right fun same => ⟨same, ?_⟩
        obtain rfl := Source.name_eq_of_undefinedAt_eq same
        simp only [Bool.or_eq_true, not_or, Bool.not_eq_true] at undefined impossible
        have scope : noted.scope = walk.scope := by
          show (walk.checkDiscard env name span).scope = walk.scope
          unfold Walk.checkDiscard
          split <;> rfl
        rintro (super | tolerated | known)
        · exact absurd (undefined.1.2.symm.trans super) Bool.false_ne_true
        · exact absurd (undefined.2.symm.trans (eased.tolerates tolerated)) Bool.false_ne_true
        · exact absurd (impossible.1.symm.trans (scope ▸ known)) Bool.false_ne_true

theorem read (name : String) (span : Span) (walk : Walk) :
    Gathers env.source [{ name, span, use := .used }] walk (walk.read env name span) :=
  read_at walk (.inl rfl)

/-- A visit that reads a variable may be left out before visits that include it. -/
theorem absorb {visits : List Visit} {visit : Visit} {second third : Walk}
    (left : Gathers source [visit] walk second) (right : Gathers source visits second third)
    (member : visit ∈ visits) (used : visit.use = .used) :
    Gathers source visits walk third := by
  have keeping (name : String) : Keeping [visit] name := by
    simp [Keeping, Visit.forgets, used]
  -- a report at the visit itself, or at one after it
  have first {name : String} {span : Span} (raised : third.Raised source name span) :
      walk.Raised source name span ∨ ∃ visit ∈ visits, visit.At source name span ∧
        (visit.use = .nested ∨
          visit.use = .used ∧ (Keeping visits name → ¬ walk.Knows name ∧ name ∉ visit.known)) := by
    rcases right.first raised with raised | ⟨other, present, place, cause⟩
    · refine (left.first raised).imp_right fun ⟨other, present, place, cause⟩ => ?_
      obtain rfl := List.mem_singleton.mp present
      exact ⟨other, member, place, cause.imp_right
        (And.imp_right fun unknown _ => unknown (keeping name))⟩
    · exact .inr ⟨other, present, place, cause.imp_right (And.imp_right fun unknown kept =>
        (unknown kept).imp_left fun unknown known => unknown (left.keeps (keeping name) known))⟩
  exact
    { inLoop := right.inLoop.trans left.inLoop
      tolerates := fun tolerates => right.tolerates (left.tolerates tolerates)
      quiet := (left.toSees.trans right.toSees).quiet
      pending := fun {name span} unread => by
        rcases right.pending unread with ⟨unread, clear⟩ | ⟨outside, noted⟩
        · refine (left.pending unread).imp (And.imp_right fun _ => clear) ?_
          rintro ⟨_, before, other, after, equal, ⟨_, use, _⟩, _⟩
          have present : other ∈ [visit] := by simp [equal]
          rw [List.mem_singleton.mp present, used] at use
          cases use
        · exact .inr ⟨left.inLoop ▸ outside, noted⟩
      implicit := fun kept implicit => left.implicit (keeping _) (right.implicit kept implicit)
      keeps := fun kept known => right.keeps kept (left.keeps (keeping _) known)
      raises := fun raised => (first raised).imp_right fun ⟨other, present, place, cause⟩ =>
        ⟨other, present, place, cause.imp_right (And.imp_right fun unknown kept =>
          (unknown kept).1)⟩
      gains := right.gains
      first := first }

/-- Visits that know nothing of each other. -/
theorem cons {visit : Visit} {visits : List Visit} {second third : Walk}
    (left : Gathers source [visit] walk second) (right : Gathers source visits second third)
    (alone : visit.known = []) (others : ∀ other ∈ visits, other.known = []) :
    Gathers source (visit :: visits) walk third := by
  let forget (visit : Visit) : Visit := { visit with known := [] }
  have relabels : Relabels forget := ⟨fun _ => rfl, fun _ => rfl, fun _ => rfl, fun _ => id⟩
  have both := (left.chain right).relabel relabels fun _ => List.nil_subset _
  have same : (Visits.chain [visit] visits).map forget = visit :: visits := by
    have forgotten {other : Visit} (alone : other.known = []) : forget other = other := by
      show ({ other with known := [] } : Visit) = other
      rw [← alone]
    rw [Visits.chain, List.map_append, List.map_map]
    refine congrArg₂ List.cons (forgotten alone) ?_
    exact (List.map_congr_left fun other member => forgotten (others other member)).trans
      (List.map_id _)
  rwa [same] at both

/-- Reads of several variables at one range; a variable that is read again is known by then. -/
theorem readAll (names : List String) (span : Span) (walk : Walk) :
    Gathers env.source (Visits.ofReads span names) walk (walk.readAll env names span) := by
  induction names generalizing walk with
  | nil => exact .refl walk
  | cons name rest inductionHypothesis =>
    have first : Gathers env.source _ walk (walk.read env name span) := .read name span walk
    have others := inductionHypothesis (walk.read env name span)
    by_cases again : name ∈ rest
    · have same : Visits.ofReads span (name :: rest) = Visits.ofReads span rest := by
        unfold Visits.ofReads
        rw [List.dedup_cons_of_mem again]
      rw [same]
      refine first.absorb others ?_ rfl
      exact List.mem_map_of_mem (List.mem_dedup.mpr again)
    · have split : Visits.ofReads span (name :: rest) =
          { name, span, use := .used } :: Visits.ofReads span rest := by
        unfold Visits.ofReads
        rw [List.dedup_cons_of_notMem again, List.map_cons]
      rw [split]
      refine first.cons others rfl fun other member => ?_
      obtain ⟨_, _, rfl⟩ := List.mem_map.mp member
      rfl

/-- A variable that was read a moment ago is visited again. -/
theorem again {visit : Visit} {after : Walk} (gathers : Gathers source [visit] walk after)
    (used : visit.use = .used) (place : Span) :
    Gathers source [visit, { visit with span := place }] walk after := by
  have keeping (name : String) : Keeping [visit] name := by
    simp [Keeping, Visit.forgets, used]
  exact
    { inLoop := gathers.inLoop
      tolerates := gathers.tolerates
      quiet := gathers.quiet
      pending := fun member => by
        rcases gathers.pending member with ⟨member, unread⟩ | ⟨_, before, noted, later, equal, notes, _⟩
        · refine .inl ⟨member, fun visit present named => ?_⟩
          rcases List.mem_cons.mp present with rfl | present
          · exact unread _ (.head _) named
          · obtain rfl := List.mem_singleton.mp present
            exact unread visit (.head _) named
        · have present : noted ∈ [visit] := by simp [equal]
          have use := notes.2.1
          rw [List.mem_singleton.mp present, used] at use
          cases use
      implicit := fun _ => gathers.implicit (keeping _)
      keeps := fun _ => gathers.keeps (keeping _)
      raises := fun raised => (gathers.raises raised).imp_right fun ⟨first, member, rest⟩ =>
        ⟨first, List.mem_cons.mpr (.inl (List.mem_singleton.mp member)), rest.1,
          rest.2.imp_right (And.imp_right fun unknown _ => unknown (keeping _))⟩
      gains := fun _ ⟨first, member, named, gains⟩ => by
        refine gathers.gains (keeping _) ⟨visit, .head _, ?_, ?_⟩
        · rcases List.mem_cons.mp member with rfl | member
          · exact named
          · obtain rfl := List.mem_singleton.mp member
            exact named
        · simp [Visit.gains, used]
      first := fun raised => (gathers.first raised).imp_right fun ⟨first, member, rest⟩ =>
        ⟨first, List.mem_cons.mpr (.inl (List.mem_singleton.mp member)), rest.1,
          rest.2.imp_right (And.imp_right fun unknown _ => unknown (keeping _))⟩ }

/-- The write of a value that should be read. -/
theorem tracked {name : String} {assigned : Walk} (eases : Eases source walk assigned)
    (known : assigned.Knows name) (span noted : Span) :
    Gathers source [{ name, span, use := .assigned (some noted) }] walk
      (assigned.track env name noted) := by
  have block : (assigned.track env name noted).block = assigned.block := by
    unfold Walk.track
    split
    · rfl
    · split <;> rfl
  have tolerates : (assigned.track env name noted).toleratesUndefined =
      assigned.toleratesUndefined := by
    unfold Walk.track
    split
    · rfl
    · split <;> rfl
  have report : (assigned.track env name noted).report = assigned.report := by
    unfold Walk.track
    split
    · rfl
    · split <;> rfl
  refine of_visit rfl ?_ ?_ (fun tolerated => tolerates.trans (eases.tolerates tolerated))
    (fun silent => report.trans (eases.quiet silent)) (fun {other place} member => ?_) (fun _ => ?_)
    fun raised => .inl (eases.raises ?_)
  · unfold Walk.scope
    rw [block]
    exact eases.scope
  · rw [block]
    exact eases.inLoop
  · rcases Walk.of_mem_pending_track member with member | ⟨outside, rfl, rfl⟩
    · refine .inl ⟨eases.pending other member, fun visit present named => ?_⟩
      obtain rfl := List.mem_singleton.mp present
      rfl
    · exact .inr ⟨eases.inLoop ▸ outside, rfl, rfl, by simp⟩
  · unfold Walk.Knows Walk.scope at *
    rwa [block, tolerates]
  · unfold Walk.Raised at *
    rwa [report] at raised

/-- An assignment to a plain variable. -/
theorem assignVar (mode : Flow.AssignMode) (types : TypeSet) (name : String) (span : Span)
    (walk : Walk) :
    Gathers source [{ name, span, use := mode.use span }] walk
      (Flow.assignVar env mode types name span walk) := by
  let assigned := walk.mapScope (·.assign name types true)
  have eases : Eases source walk assigned := .mapScope (.assign ..)
  have known : assigned.Knows name := by
    refine .mapScope ?_
    rw [Scope.mayHave_assign, beq_self_eq_true, Bool.true_or]
  cases mode with
  | plain => exact .tracked eases known span span
  | compound outer => exact .bound span eases known
  | reference => exact .bound span (eases.trans (.share name assigned)) known
  | iteration outer => exact .tracked eases known span outer

/-- A value is stored into an element of a plain variable. -/
theorem storeInVar (types : TypeSet) (name : String) (span place : Span) (walk : Walk) :
    Gathers env.source [{ name, span := place, use := .used }] walk
      (Flow.storeInVar env types name span walk) := by
  unfold Flow.storeInVar
  split
  · refine .bound place (.mapScope (.assign ..)) (.mapScope ?_)
    rw [Scope.mayHave_assign, beq_self_eq_true, Bool.true_or]
  · refine .eases_then (.mapScope (.add ..)) (.read_at _ (.inr (.mapScope ?_)))
    rw [Scope.mayHave_add, beq_self_eq_true, Bool.true_or]

/-- A plain variable is passed by reference. -/
theorem passVar (param : ParamInfo) (name : String) (span : Span) (walk : Walk) :
    Gathers source [{ name, span, use := .used }] walk (Flow.passVar env param name walk) := by
  unfold Flow.passVar
  refine .bound span ((Eases.mapScope (.add ..)).trans (.share name _)) (.inr (.inr ?_))
  exact (Scope.mayHave_add ..).trans (by rw [beq_self_eq_true, Bool.true_or])

/-- A reference is taken to a plain variable. -/
theorem shareVar (name : String) (span : Span) (walk : Walk) :
    Gathers source [{ name, span, use := .used }] walk (Flow.shareVar env name walk) := by
  unfold Flow.shareVar
  dsimp only
  split
  · next defined =>
    exact .bound span (.share name walk) (.inr (.inr (Scope.mayHave_of_has defined)))
  · refine .bound span ((Eases.mapScope (.add ..)).trans (.share name _)) (.inr (.inr ?_))
    exact (Scope.mayHave_add ..).trans (by rw [beq_self_eq_true, Bool.true_or])

/-- The variable of a clause that catches an exception. -/
theorem bindCaught (types : List String) (name : Option String) (span : Span) (walk : Walk) :
    Gathers source (name.toList.map fun name => { name, span, use := .assigned none }) walk
      (Flow.bindCaught env types name walk) := by
  cases name with
  | none => exact .refl walk
  | some name =>
    refine of_visit rfl (.assign ..) rfl id (fun _ => rfl) (fun member => .inl ⟨member, ?_⟩)
      (fun _ => .inr (.inr ?_)) .inl
    · intro visit present _
      obtain rfl := List.mem_singleton.mp present
      rfl
    · exact (Scope.mayHave_assign ..).trans (by rw [beq_self_eq_true, Bool.true_or])

/-- Variables that are bound to those of the same name outside of the body. -/
theorem globals (names : List String) (span : Span) (walk : Walk) :
    Gathers source (names.map fun name => { name, span, use := .used }) walk
      (names.foldl (fun walk name =>
        ((walk.mapScope fun scope =>
          scope.assign name (.singleton (.global (Text.withoutDollar name))) true).share
            name).untrack env name) walk) := by
  induction names generalizing walk with
  | nil => exact .refl walk
  | cons name rest inductionHypothesis =>
    have first : Gathers source [{ name, span, use := .used }] walk
        (((walk.mapScope fun scope =>
          scope.assign name (.singleton (.global (Text.withoutDollar name))) true).share
            name).untrack env name) := by
      refine .bound span ((Eases.mapScope (.assign ..)).trans (.share name _)) (.inr (.inr ?_))
      exact (Scope.mayHave_assign ..).trans (by rw [beq_self_eq_true, Bool.true_or])
    refine first.cons (inductionHypothesis _) rfl fun other member => ?_
    obtain ⟨_, _, rfl⟩ := List.mem_map.mp member
    rfl

/-- Variables that lose their value. -/
theorem unset (names : List String) (span : Span) (walk : Walk) :
    Gathers source (names.map fun name => { name, span, use := .unset }) walk
      (names.foldl (fun walk name => (walk.untrack env name).mapScope (·.erase name)) walk) := by
  induction names generalizing walk with
  | nil => exact .refl walk
  | cons name rest inductionHypothesis =>
    have others {other : String} (keeping : Keeping [{ name, span, use := .unset }] other) :
        (walk.scope.erase name).get? other = walk.scope.get? other := by
      have different : name ≠ other := fun equal =>
        absurd (keeping _ (.head _) equal) (by simp [Visit.forgets])
      unfold Scope.get? Scope.erase
      rw [Std.TreeMap.getElem?_erase, if_neg (by simpa using different)]
    have first : Gathers source [{ name, span, use := .unset }] walk
        ((walk.untrack env name).mapScope (·.erase name)) :=
      { inLoop := rfl
        tolerates := id
        quiet := fun _ => rfl
        pending := fun {other place} member => by
          refine .inl ⟨Walk.pending_untrack_subset env walk name other member,
            fun visit present named => ?_⟩
          obtain rfl := List.mem_singleton.mp present
          subst named
          exact absurd member (walk.not_mem_pending_untrack env name place)
        implicit := fun keeping implicit => by
          have found : (walk.scope.erase name).hasImplicit _ = true := implicit
          unfold Scope.hasImplicit at *
          rwa [others keeping] at found
        keeps := fun keeping known => by
          refine known.imp_right (Or.imp_right fun has => ?_)
          show (walk.scope.erase name).mayHave _ = true
          unfold Scope.mayHave at *
          rwa [others keeping]
        raises := .inl
        gains := fun _ gained => by simp [Gained, Visit.gains] at gained
        first := .inl }
    refine first.cons (inductionHypothesis _) rfl fun other member => ?_
    obtain ⟨_, _, rfl⟩ := List.mem_map.mp member
    rfl

end Gathers

end PhpAudit
