/-
This file says once what a walk can do to what it knows about variables, in terms of the variables
that it visits. A write is noted where it is visited and dropped by the next visit that reads the
variable; a variable that has a value at some point of the walk keeps it; and an undefined variable
is reported only at a visit that comes to it unknown.

Walks are compared by their states before and after. States compose, so a statement about a list of
visits follows from those about its parts.
-/

import PhpAudit.Proofs.Flow.Joining
import PhpAudit.Proofs.Flow.Visits

namespace PhpAudit

/-! ### Scopes -/

namespace Scope

theorem mayHave_add (scope : Scope) (name other : String) (types : TypeSet) (always : Bool) :
    (scope.add name types always).mayHave other = (name == other || scope.mayHave other) := by
  unfold add
  split <;> exact mayHave_put ..

theorem mayHave_assign (scope : Scope) (name other : String) (types : TypeSet) (always : Bool) :
    (scope.assign name types always).mayHave other = (name == other || scope.mayHave other) := by
  unfold assign
  split
  · split <;> exact mayHave_put ..
  · exact mayHave_put ..

theorem hasImplicit_put (scope : Scope) (name other : String) (info : VarInfo) :
    (scope.put name info).hasImplicit other =
      if name = other then info.implicit else scope.hasImplicit other := by
  unfold hasImplicit
  rw [get?_put]
  split <;> rfl

theorem mayHave_of_has {scope : Scope} {name : String} (defined : scope.has name = true) :
    scope.mayHave name = true := by
  obtain ⟨info, found, _⟩ := (scope.has_eq_true name).mp defined
  unfold mayHave
  rw [found]
  rfl

theorem mayHave_of_hasImplicit {scope : Scope} {name : String}
    (implicit : scope.hasImplicit name = true) : scope.mayHave name = true := by
  unfold hasImplicit at implicit
  unfold mayHave
  cases found : scope.get? name with
  | none => simp [found] at implicit
  | some info => rfl

/-- No variable is lost, and none is introduced by a test. -/
structure Widens (before after : Scope) : Prop where
  mayHave : ∀ {name : String}, before.mayHave name = true → after.mayHave name = true
  implicit : ∀ {name : String}, after.hasImplicit name = true → before.hasImplicit name = true

namespace Widens

variable {scope first second third : Scope}

theorem refl (scope : Scope) : Widens scope scope :=
  ⟨id, id⟩

theorem trans (left : Widens first second) (right : Widens second third) : Widens first third :=
  ⟨fun known => right.mayHave (left.mayHave known),
    fun implicit => left.implicit (right.implicit implicit)⟩

/-- A variable is stored that no test introduced, or that was introduced before. -/
theorem put (name : String) {info : VarInfo}
    (introduced : info.implicit = true → scope.hasImplicit name = true) :
    Widens scope (scope.put name info) where
  mayHave {other} known := by
    rw [mayHave_put, known, Bool.or_true]
  implicit {other} implicit := by
    rw [hasImplicit_put] at implicit
    split at implicit
    · next equal => exact equal ▸ introduced implicit
    · exact implicit

theorem add (scope : Scope) (name : String) (types : TypeSet) (always : Bool) :
    Widens scope (scope.add name types always) := by
  unfold Scope.add
  split
  · next info found =>
    refine .put name fun implicit => ?_
    unfold hasImplicit
    rw [found]
    exact implicit
  · exact .put name fun implicit => absurd implicit Bool.false_ne_true

theorem assign (scope : Scope) (name : String) (types : TypeSet) (always : Bool) :
    Widens scope (scope.assign name types always) := by
  unfold Scope.assign
  split
  · next info found =>
    split
    · refine .put name fun implicit => ?_
      unfold hasImplicit
      rw [found]
      exact implicit
    · exact .put name fun implicit => absurd implicit Bool.false_ne_true
  · exact .put name fun implicit => absurd implicit Bool.false_ne_true

theorem foldl {Item : Type} {change : Scope → Item → Scope}
    (widens : ∀ scope item, Widens scope (change scope item)) (items : List Item) (scope : Scope) :
    Widens scope (items.foldl change scope) := by
  induction items generalizing scope with
  | nil => exact .refl scope
  | cons item rest inductionHypothesis =>
    exact (widens scope item).trans (inductionHypothesis (change scope item))

end Widens

end Scope

namespace Block

theorem widens_merge (block : Block) (branches : List Block) (links : Nat) :
    block.scope.Widens (block.merge branches links).scope :=
  .foldl (fun scope _ => .add scope ..) _ _

theorem widens_mergeOptional (block branch : Block) :
    block.scope.Widens (block.mergeOptional branch).scope :=
  .foldl (fun scope _ => .add scope ..) _ _

end Block

/-! ### What a walk knows -/

/-- The report of a variable that no path defines. -/
def Source.undefinedAt (source : Source) (name : String) (span : Span) : Issue :=
  source.issueAt span .error "undefined" s!"Undefined variable: {name}"

/-- Other issues are no reports of undefined variables. -/
theorem Source.issueAt_ne_undefinedAt (source : Source) {severity : Severity}
    {check message : String} (other : ∀ name : String, severity = .error → check = "undefined" →
      message ≠ s!"Undefined variable: {name}") (span : Span) (name : String) (place : Span) :
    source.issueAt span severity check message ≠ source.undefinedAt name place := by
  intro equal
  exact other name (congrArg Issue.severity equal) (congrArg Issue.check equal)
    (congrArg Issue.message equal)

/-- The variable that a report is about. -/
theorem Source.name_eq_of_undefinedAt_eq {source : Source} {name other : String}
    {span place : Span} (equal : source.undefinedAt name span = source.undefinedAt other place) :
    name = other := by
  have messages : "Undefined variable: " ++ name = "Undefined variable: " ++ other :=
    congrArg Issue.message equal
  have texts := congrArg String.toList messages
  rw [String.toList_append, String.toList_append] at texts
  exact String.toList_inj.mp (List.append_cancel_left texts)

namespace Walk

/-- The writes of a variable that were not read yet. -/
def pending (walk : Walk) (name : String) : List Span :=
  walk.unread.getD name []

/-- A read of the variable would not be reported as one that no path defines. -/
def Knows (walk : Walk) (name : String) : Prop :=
  isSuperglobal name = true ∨ walk.toleratesUndefined = true ∨ walk.scope.mayHave name = true

/-- The report of the variable at that range is among those of the walk. -/
def Raised (source : Source) (walk : Walk) (name : String) (span : Span) : Prop :=
  source.undefinedAt name span ∈ walk.report.issues

end Walk

/-! ### What visits do -/

/-- No visit drops what is known about the variable. -/
def Keeping (visits : List Visit) (name : String) : Prop :=
  ∀ visit ∈ visits, visit.name = name → visit.forgets = false

/-- No visit counts the writes before it as read. -/
def Unread (visits : List Visit) (name : String) : Prop :=
  ∀ visit ∈ visits, visit.name = name → visit.clears = false

/-- Some visit gives the variable a value. -/
def Gained (visits : List Visit) (name : String) : Prop :=
  ∃ visit ∈ visits, visit.name = name ∧ visit.gains = true

/-- The visit notes a write, and stands outside the bodies of loops. -/
def Visit.Notes (visit : Visit) (name : String) (span : Span) : Prop :=
  visit.name = name ∧ visit.use = .assigned (some span) ∧ visit.turn ≠ .body

/-- A write is noted, and not read afterwards. -/
def Noted (visits : List Visit) (name : String) (span : Span) : Prop :=
  ∃ before visit after, visits = before ++ visit :: after ∧ visit.Notes name span ∧
    Unread after name

/-- The visit is one at which the variable would be reported in that place. -/
def Visit.At (source : Source) (name : String) (span : Span) (visit : Visit) : Prop :=
  source.undefinedAt visit.name visit.span = source.undefinedAt name span

theorem Keeping.left {first second : List Visit} {name : String}
    (keeping : Keeping (first ++ second) name) : Keeping first name :=
  fun visit member => keeping visit (List.mem_append_left _ member)

theorem Keeping.right {first second : List Visit} {name : String}
    (keeping : Keeping (first ++ second) name) : Keeping second name :=
  fun visit member => keeping visit (List.mem_append_right _ member)

theorem Unread.append {first second : List Visit} {name : String} (left : Unread first name)
    (right : Unread second name) : Unread (first ++ second) name :=
  fun visit member => (List.mem_append.mp member).elim (left visit) (right visit)

theorem Noted.append_right {first : List Visit} {name : String} {span : Span}
    (noted : Noted first name span) {second : List Visit} (unread : Unread second name) :
    Noted (first ++ second) name span := by
  obtain ⟨before, visit, after, rfl, notes, unreadAfter⟩ := noted
  exact ⟨before, visit, after ++ second, by simp, notes, unreadAfter.append unread⟩

theorem Noted.append_left {second : List Visit} {name : String} {span : Span}
    (noted : Noted second name span) (first : List Visit) : Noted (first ++ second) name span := by
  obtain ⟨before, visit, after, rfl, rest⟩ := noted
  exact ⟨first ++ before, visit, after, by simp, rest⟩

/-- A write that is noted somewhere, where no visit reads the variable. -/
theorem Noted.of_unread {visits : List Visit} {visit : Visit} {name : String} {span : Span}
    (member : visit ∈ visits) (notes : visit.Notes name span) (unread : Unread visits name) :
    Noted visits name span := by
  obtain ⟨before, after, rfl⟩ := List.append_of_mem member
  exact ⟨before, visit, after, rfl, notes,
    fun other member => unread other (List.mem_append_right _ (.tail _ member))⟩

/-- A change of visits that keeps what a walk does at them. -/
structure Relabels (change : Visit → Visit) : Prop where
  name : ∀ visit, (change visit).name = visit.name
  span : ∀ visit, (change visit).span = visit.span
  use : ∀ visit, (change visit).use = visit.use
  turn : ∀ visit, (change visit).turn = .body → visit.turn = .body

namespace Relabels

variable {change : Visit → Visit} {visits : List Visit} {name : String} {span : Span}

theorem forgets (relabels : Relabels change) (visit : Visit) :
    (change visit).forgets = visit.forgets := by
  unfold Visit.forgets
  rw [relabels.use]

theorem clears (relabels : Relabels change) (visit : Visit) :
    (change visit).clears = visit.clears := by
  unfold Visit.clears
  rw [relabels.use]

theorem gains (relabels : Relabels change) (visit : Visit) :
    (change visit).gains = visit.gains := by
  unfold Visit.gains
  rw [relabels.use]

theorem keeping (relabels : Relabels change) (keeping : Keeping (visits.map change) name) :
    Keeping visits name := by
  intro visit member named
  rw [← relabels.forgets]
  exact keeping _ (List.mem_map_of_mem member) ((relabels.name visit).trans named)

theorem unread (relabels : Relabels change) (unread : Unread visits name) :
    Unread (visits.map change) name := by
  intro visit member named
  obtain ⟨old, present, rfl⟩ := List.mem_map.mp member
  rw [relabels.clears]
  exact unread old present (relabels.name old ▸ named)

theorem gained (relabels : Relabels change) (gained : Gained (visits.map change) name) :
    Gained visits name := by
  obtain ⟨visit, member, named, gains⟩ := gained
  obtain ⟨old, present, rfl⟩ := List.mem_map.mp member
  exact ⟨old, present, relabels.name old ▸ named, relabels.gains old ▸ gains⟩

theorem noted (relabels : Relabels change) (noted : Noted visits name span) :
    Noted (visits.map change) name span := by
  obtain ⟨before, visit, after, rfl, ⟨named, use, turn⟩, unread⟩ := noted
  exact ⟨before.map change, change visit, after.map change, by simp,
    ⟨(relabels.name visit).trans named, (relabels.use visit).trans use,
      fun body => turn (relabels.turn visit body)⟩, relabels.unread unread⟩

theorem place (relabels : Relabels change) {source : Source} {visit : Visit}
    (place : visit.At source name span) : (change visit).At source name span := by
  unfold Visit.At
  rwa [relabels.name, relabels.span]

theorem hasten : Relabels Visit.hasten :=
  ⟨fun _ => rfl, fun _ => rfl, fun _ => rfl, fun _ => id⟩

theorem inHead : Relabels Visit.inHead :=
  ⟨fun _ => rfl, fun _ => rfl, fun _ => rfl, fun _ head => absurd head (by simp [Visit.inHead])⟩

theorem after (earlier : List Visit) : Relabels (Visit.after earlier) :=
  ⟨fun _ => rfl, fun _ => rfl, fun _ => rfl, fun _ => id⟩

end Relabels

/-! ### What a walk does -/

/-- Steps that visit no variable: they forget and report nothing, and note no write. -/
structure Eases (source : Source) (before after : Walk) : Prop where
  scope : before.scope.Widens after.scope
  inLoop : after.block.insideLoop = before.block.insideLoop
  pending : ∀ name, after.pending name ⊆ before.pending name
  tolerates : before.toleratesUndefined = true → after.toleratesUndefined = true
  quiet : before.report.enabled = false → after.report = before.report
  raises : ∀ {name span}, after.Raised source name span → before.Raised source name span

/-- What the walk over code with the given visits does to what it knows about variables. -/
structure Sees (source : Source) (visits : List Visit) (before after : Walk) : Prop where
  inLoop : after.block.insideLoop = before.block.insideLoop
  tolerates : before.toleratesUndefined = true → after.toleratesUndefined = true
  quiet : before.report.enabled = false → after.report = before.report
  /-- A write that is unread afterwards was so before, or is noted outside of loops. -/
  pending : ∀ {name span}, span ∈ after.pending name →
    span ∈ before.pending name ∧ Unread visits name ∨
      before.block.insideLoop = false ∧ Noted visits name span
  implicit : ∀ {name}, Keeping visits name → after.scope.hasImplicit name = true →
    before.scope.hasImplicit name = true
  keeps : ∀ {name}, Keeping visits name → before.Knows name → after.Knows name
  /-- A report stands at a visit, at which the variable was not known before. -/
  raises : ∀ {name span}, after.Raised source name span → before.Raised source name span ∨
    ∃ visit ∈ visits, visit.At source name span ∧ (visit.use = .nested ∨
      visit.use = .used ∧ (Keeping visits name → ¬ before.Knows name))

/--
The walk over an expression, in which every visit is made: the variables that are given a value are
known afterwards, and a report stands at a visit that follows no visit that gives the variable one.
-/
structure Gathers (source : Source) (visits : List Visit) (before after : Walk) : Prop
    extends Sees source visits before after where
  gains : ∀ {name}, Keeping visits name → Gained visits name → after.Knows name
  first : ∀ {name span}, after.Raised source name span → before.Raised source name span ∨
    ∃ visit ∈ visits, visit.At source name span ∧ (visit.use = .nested ∨
      visit.use = .used ∧ (Keeping visits name → ¬ before.Knows name ∧ name ∉ visit.known))

namespace Eases

variable {source : Source} {first second third : Walk}

theorem refl (walk : Walk) : Eases source walk walk :=
  ⟨.refl _, rfl, fun _ => List.Subset.refl _, id, fun _ => rfl, id⟩

theorem trans (left : Eases source first second) (right : Eases source second third) :
    Eases source first third where
  scope := left.scope.trans right.scope
  inLoop := right.inLoop.trans left.inLoop
  pending name := List.Subset.trans (right.pending name) (left.pending name)
  tolerates tolerates := right.tolerates (left.tolerates tolerates)
  quiet silent := by
    have same := left.quiet silent
    exact (right.quiet (same ▸ silent)).trans same
  raises raised := left.raises (right.raises raised)

theorem foldl {Item : Type} {step : Walk → Item → Walk}
    (eases : ∀ walk item, Eases source walk (step walk item)) (items : List Item) (walk : Walk) :
    Eases source walk (items.foldl step walk) := by
  induction items generalizing walk with
  | nil => exact .refl walk
  | cons item rest inductionHypothesis =>
    exact (eases walk item).trans (inductionHypothesis (step walk item))

theorem knows (eases : Eases source first second) {name : String} (known : first.Knows name) :
    second.Knows name :=
  known.imp_right (Or.imp eases.tolerates eases.scope.mayHave)

end Eases

namespace Sees

variable {source : Source} {visits others : List Visit} {first second third : Walk}

theorem of_eases (eases : Eases source first second) : Sees source [] first second where
  inLoop := eases.inLoop
  tolerates := eases.tolerates
  quiet := eases.quiet
  pending member := .inl ⟨eases.pending _ member, fun _ none => absurd none List.not_mem_nil⟩
  implicit _ implicit := eases.scope.implicit implicit
  keeps _ known := eases.knows known
  raises raised := .inl (eases.raises raised)

theorem refl (walk : Walk) : Sees source [] walk walk :=
  .of_eases (.refl walk)

/--
Code that is walked in a block of its own, after code with the visits before it: what was known at
the start of that code is known in the block.
-/
theorem branch (left : Sees source visits first second) {block : Block} {inner : Walk}
    (entered : Sees source others { second with block } inner)
    (inLoop : block.insideLoop = false → second.block.insideLoop = false)
    (covers : ∀ {name}, Keeping visits name → first.Knows name →
      Walk.Knows { second with block } name) :
    Sees source (visits ++ others) first { inner with block := second.block } where
  inLoop := left.inLoop
  tolerates tolerates := entered.tolerates (left.tolerates tolerates)
  quiet silent := by
    have same := left.quiet silent
    exact (entered.quiet (congrArg Report.enabled same |>.trans silent)).trans same
  pending member := by
    rcases entered.pending member with ⟨member, unread⟩ | ⟨outside, noted⟩
    · rcases left.pending member with ⟨member, unreadBefore⟩ | ⟨outside, noted⟩
      · exact .inl ⟨member, unreadBefore.append unread⟩
      · exact .inr ⟨outside, noted.append_right unread⟩
    · exact .inr ⟨left.inLoop ▸ inLoop outside, noted.append_left visits⟩
  implicit keeping implicit := left.implicit keeping.left implicit
  keeps keeping known :=
    (left.keeps keeping.left known).imp_right (Or.imp_left entered.tolerates)
  raises raised := by
    rcases entered.raises raised with raised | ⟨visit, member, place, cause⟩
    · rcases left.raises raised with raised | ⟨visit, member, place, cause⟩
      · exact .inl raised
      · exact .inr ⟨visit, List.mem_append_left _ member, place,
          cause.imp_right fun ⟨used, unknown⟩ => ⟨used, fun keeping => unknown keeping.left⟩⟩
    · exact .inr ⟨visit, List.mem_append_right _ member, place,
        cause.imp_right fun ⟨used, unknown⟩ => ⟨used, fun keeping known =>
          unknown keeping.right (covers keeping.left known)⟩⟩

theorem trans (left : Sees source visits first second) (right : Sees source others second third) :
    Sees source (visits ++ others) first third where
  inLoop := right.inLoop.trans left.inLoop
  tolerates tolerates := right.tolerates (left.tolerates tolerates)
  quiet silent := by
    have same := left.quiet silent
    exact (right.quiet (same ▸ silent)).trans same
  pending member := by
    rcases right.pending member with ⟨member, unread⟩ | ⟨outside, noted⟩
    · rcases left.pending member with ⟨member, unreadBefore⟩ | ⟨outside, noted⟩
      · exact .inl ⟨member, unreadBefore.append unread⟩
      · exact .inr ⟨outside, noted.append_right unread⟩
    · exact .inr ⟨left.inLoop ▸ outside, noted.append_left visits⟩
  implicit keeping implicit := left.implicit keeping.left (right.implicit keeping.right implicit)
  keeps keeping known := right.keeps keeping.right (left.keeps keeping.left known)
  raises raised := by
    rcases right.raises raised with raised | ⟨visit, member, place, cause⟩
    · rcases left.raises raised with raised | ⟨visit, member, place, cause⟩
      · exact .inl raised
      · exact .inr ⟨visit, List.mem_append_left _ member, place,
          cause.imp_right fun ⟨used, unknown⟩ => ⟨used, fun keeping => unknown keeping.left⟩⟩
    · exact .inr ⟨visit, List.mem_append_right _ member, place,
        cause.imp_right fun ⟨used, unknown⟩ => ⟨used, fun keeping known =>
          unknown keeping.right (left.keeps keeping.left known)⟩⟩

theorem then_eases (sees : Sees source visits first second) (eases : Eases source second third) :
    Sees source visits first third := by
  have both := sees.trans (of_eases eases)
  rwa [List.append_nil] at both

theorem eases_then (eases : Eases source first second) (sees : Sees source visits second third) :
    Sees source visits first third :=
  (of_eases eases).trans sees

theorem relabel {change : Visit → Visit} (relabels : Relabels change)
    (sees : Sees source visits first second) : Sees source (visits.map change) first second where
  inLoop := sees.inLoop
  tolerates := sees.tolerates
  quiet := sees.quiet
  pending member := (sees.pending member).imp (And.imp_right relabels.unread)
    (And.imp_right relabels.noted)
  implicit keeping := sees.implicit (relabels.keeping keeping)
  keeps keeping := sees.keeps (relabels.keeping keeping)
  raises raised := by
    refine (sees.raises raised).imp_right fun ⟨visit, member, place, cause⟩ =>
      ⟨change visit, List.mem_map_of_mem member, relabels.place place, ?_⟩
    rw [relabels.use]
    exact cause.imp_right (And.imp_right fun unknown keeping =>
      unknown (relabels.keeping keeping))

/-- Inside of a loop nothing is noted, so the visits may as well stand in the body of one. -/
theorem inBody (sees : Sees source visits first second) (inside : first.block.insideLoop = true) :
    Sees source (visits.map Visit.inBody) first second where
  inLoop := sees.inLoop
  tolerates := sees.tolerates
  quiet := sees.quiet
  pending member := by
    rcases sees.pending member with ⟨member, unread⟩ | ⟨outside, _⟩
    · refine .inl ⟨member, fun visit member => ?_⟩
      obtain ⟨visit, present, rfl⟩ := List.mem_map.mp member
      exact unread visit present
    · exact absurd (inside.symm.trans outside) Bool.false_ne_true.symm
  implicit keeping := sees.implicit fun visit member =>
    keeping visit.inBody (List.mem_map_of_mem member)
  keeps keeping := sees.keeps fun visit member =>
    keeping visit.inBody (List.mem_map_of_mem member)
  raises raised := by
    refine (sees.raises raised).imp_right fun ⟨visit, member, place, cause⟩ =>
      ⟨visit.inBody, List.mem_map_of_mem member, place, ?_⟩
    exact cause.imp_right (And.imp_right fun unknown keeping => unknown fun visit member =>
      keeping visit.inBody (List.mem_map_of_mem member))

/-- The walk over the body of a loop that is walked in the block around it. -/
theorem looped {walk after : Walk}
    (sees : Sees source visits (walk.mapBlock fun block => { block with insideLoop := true }) after)
    (exits : Exits → Exits) :
    Sees source visits walk (after.mapBlock fun block =>
      { block with insideLoop := walk.block.insideLoop, exits := exits block.exits }) where
  inLoop := rfl
  tolerates := sees.tolerates
  quiet := sees.quiet
  pending member := (sees.pending member).imp_right fun ⟨outside, _⟩ =>
    absurd outside Bool.false_ne_true.symm
  implicit := sees.implicit
  keeps := sees.keeps
  raises := sees.raises

end Sees

/--
Code that is walked before its turn and without reports: the writes in it may be noted, whether they
are read in it or not.
-/
structure Echoes (visits : List Visit) (before after : Walk) : Prop where
  inLoop : after.block.insideLoop = before.block.insideLoop
  tolerates : before.toleratesUndefined = true → after.toleratesUndefined = true
  quiet : before.report.enabled = false → after.report = before.report
  pending : ∀ {name span}, span ∈ after.pending name → span ∈ before.pending name ∨
    before.block.insideLoop = false ∧ ∃ visit ∈ visits, visit.Notes name span
  keeps : ∀ {name}, Keeping visits name → before.Knows name → after.Knows name

namespace Echoes

variable {source : Source} {visits others : List Visit} {first second third : Walk}

theorem refl (walk : Walk) : Echoes [] walk walk :=
  ⟨rfl, id, fun _ => rfl, .inl, fun _ => id⟩

theorem of_sees (sees : Sees source visits first second) : Echoes visits first second where
  inLoop := sees.inLoop
  tolerates := sees.tolerates
  quiet := sees.quiet
  pending member := by
    rcases sees.pending member with ⟨member, _⟩ | ⟨outside, before, visit, after, rfl, notes, _⟩
    · exact .inl member
    · exact .inr ⟨outside, visit, by simp, notes⟩
  keeps := sees.keeps

theorem trans (left : Echoes visits first second) (right : Echoes others second third) :
    Echoes (visits ++ others) first third where
  inLoop := right.inLoop.trans left.inLoop
  tolerates tolerates := right.tolerates (left.tolerates tolerates)
  quiet silent := by
    have same := left.quiet silent
    exact (right.quiet (same ▸ silent)).trans same
  pending member := by
    rcases right.pending member with member | ⟨outside, visit, present, notes⟩
    · exact (left.pending member).imp_right fun ⟨outside, visit, present, notes⟩ =>
        ⟨outside, visit, List.mem_append_left _ present, notes⟩
    · exact .inr ⟨left.inLoop ▸ outside, visit, List.mem_append_right _ present, notes⟩
  keeps keeping known := right.keeps keeping.right (left.keeps keeping.left known)

theorem mono (echoes : Echoes visits first second) (included : visits ⊆ others) :
    Echoes others first second where
  inLoop := echoes.inLoop
  tolerates := echoes.tolerates
  quiet := echoes.quiet
  pending member := (echoes.pending member).imp_right fun ⟨outside, visit, present, notes⟩ =>
    ⟨outside, visit, included present, notes⟩
  keeps keeping := echoes.keeps fun visit present => keeping visit (included present)

/-- Without reports the report stays as it is. -/
theorem silently {steps : Walk → Walk} {walk : Walk}
    (echoes : Echoes visits { walk with report := { walk.report with enabled := false } }
      (steps { walk with report := { walk.report with enabled := false } })) :
    Echoes visits walk (walk.silently steps) ∧ (walk.silently steps).report = walk.report := by
  have report : (walk.silently steps).report = walk.report :=
    congrArg (fun report : Report => { report with enabled := walk.report.enabled })
      (echoes.quiet rfl)
  exact ⟨⟨echoes.inLoop, echoes.tolerates, fun _ => report, echoes.pending, echoes.keeps⟩, report⟩

/-- Code that is walked twice, the first time in a block of its own and without reports. -/
theorem then_sees {block : Block} {inner : Walk} (left : Sees source visits first second)
    (echoes : Echoes others { second with block } inner) (report : inner.report = second.report)
    (inLoop : block.insideLoop = second.block.insideLoop)
    (right : Sees source others { inner with block := second.block } third) :
    Sees source (visits ++ others) first third := by
  have unreported : Sees source visits first
      { second with toleratesUndefined := inner.toleratesUndefined } :=
    { inLoop := left.inLoop
      tolerates := fun tolerates => echoes.tolerates (left.tolerates tolerates)
      quiet := left.quiet
      pending := left.pending
      implicit := left.implicit
      keeps := fun keeping known =>
        (left.keeps keeping known).imp_right (Or.imp_left echoes.tolerates)
      raises := left.raises }
  have again : Sees source others
      { second with toleratesUndefined := inner.toleratesUndefined } third :=
    { inLoop := right.inLoop
      tolerates := right.tolerates
      quiet := fun silent => (right.quiet ((congrArg Report.enabled report).trans silent)).trans
        report
      pending := fun member => by
        rcases right.pending member with ⟨member, unread⟩ | noted
        · rcases echoes.pending member with member | ⟨outside, visit, present, notes⟩
          · exact .inl ⟨member, unread⟩
          · exact .inr ⟨inLoop ▸ outside, .of_unread present notes unread⟩
        · exact .inr noted
      implicit := right.implicit
      keeps := right.keeps
      raises := fun raised => (right.raises raised).imp_left fun raised => by
        unfold Walk.Raised at *
        rwa [← report] }
  exact unreported.trans again

end Echoes

namespace Gathers

variable {source : Source} {visits others : List Visit} {first second third : Walk}

theorem of_eases (eases : Eases source first second) : Gathers source [] first second where
  toSees := .of_eases eases
  gains _ gained := by
    obtain ⟨_, none, _⟩ := gained
    exact absurd none List.not_mem_nil
  first raised := .inl (eases.raises raised)

theorem refl (walk : Walk) : Gathers source [] walk walk :=
  .of_eases (.refl walk)

/-- A single visit, after which nothing is forgotten. -/
theorem of_visit {visit : Visit} (alone : visit.known = []) (scope : first.scope.Widens second.scope)
    (inLoop : second.block.insideLoop = first.block.insideLoop)
    (tolerates : first.toleratesUndefined = true → second.toleratesUndefined = true)
    (quiet : first.report.enabled = false → second.report = first.report)
    (pending : ∀ {name span}, span ∈ second.pending name →
      span ∈ first.pending name ∧ Unread [visit] name ∨
        first.block.insideLoop = false ∧ visit.Notes name span)
    (gains : visit.gains = true → second.Knows visit.name)
    (raises : ∀ {name span}, second.Raised source name span → first.Raised source name span ∨
      visit.At source name span ∧ visit.use = .used ∧ ¬ first.Knows name) :
    Gathers source [visit] first second where
  inLoop := inLoop
  tolerates := tolerates
  quiet := quiet
  pending member := (pending member).imp_right fun ⟨outside, notes⟩ =>
    ⟨outside, [], visit, [], rfl, notes, fun _ none => absurd none List.not_mem_nil⟩
  implicit _ implicit := scope.implicit implicit
  keeps _ known := known.imp_right (Or.imp tolerates scope.mayHave)
  raises raised := (raises raised).imp_right fun ⟨place, used, unknown⟩ =>
    ⟨visit, .head _, place, .inr ⟨used, fun _ => unknown⟩⟩
  gains _ gained := by
    obtain ⟨other, member, rfl, gained⟩ := gained
    obtain rfl := List.mem_singleton.mp member
    exact gains gained
  first raised := (raises raised).imp_right fun ⟨place, used, unknown⟩ =>
    ⟨visit, .head _, place, .inr ⟨used, fun _ => ⟨unknown, by simp [alone]⟩⟩⟩

theorem relabel {change : Visit → Visit} (relabels : Relabels change)
    (known : ∀ visit, (change visit).known ⊆ visit.known)
    (gathers : Gathers source visits first second) :
    Gathers source (visits.map change) first second where
  toSees := gathers.toSees.relabel relabels
  gains keeping gained := gathers.gains (relabels.keeping keeping) (relabels.gained gained)
  first raised := by
    refine (gathers.first raised).imp_right fun ⟨visit, member, place, cause⟩ =>
      ⟨change visit, List.mem_map_of_mem member, relabels.place place, ?_⟩
    rw [relabels.use]
    exact cause.imp_right (And.imp_right fun unknown keeping =>
      (unknown (relabels.keeping keeping)).imp_right fun missing found =>
        missing (known visit found))

theorem hastenIf (gathers : Gathers source visits first second) (early : Bool) :
    Gathers source (Visits.hastenIf early visits) first second := by
  unfold Visits.hastenIf
  split
  · exact gathers.relabel .hasten fun _ => List.Subset.refl _
  · exact gathers

/-- Expressions that are walked one after the other: what the first one gains the second knows. -/
theorem chain (left : Gathers source visits first second)
    (right : Gathers source others second third) :
    Gathers source (Visits.chain visits others) first third where
  toSees := left.toSees.trans (right.toSees.relabel (.after visits))
  gains keeping gained := by
    have keepingOthers := (Relabels.after visits).keeping keeping.right
    obtain ⟨visit, member, named, gains⟩ := gained
    rcases List.mem_append.mp member with member | member
    · exact right.keeps keepingOthers (left.gains keeping.left ⟨visit, member, named, gains⟩)
    · exact right.gains keepingOthers
        ((Relabels.after visits).gained ⟨visit, member, named, gains⟩)
  first raised := by
    rcases right.first raised with raised | ⟨visit, member, place, cause⟩
    · rcases left.first raised with raised | ⟨visit, member, place, cause⟩
      · exact .inl raised
      · exact .inr ⟨visit, List.mem_append_left _ member, place,
          cause.imp_right fun ⟨used, unknown⟩ => ⟨used, fun keeping => unknown keeping.left⟩⟩
    · refine .inr ⟨visit.after visits, List.mem_append_right _ (List.mem_map_of_mem member), place,
        cause.imp_right fun ⟨used, unknown⟩ => ⟨used, fun keeping => ?_⟩⟩
      obtain ⟨unknownNext, notGained⟩ := unknown ((Relabels.after visits).keeping keeping.right)
      refine ⟨fun known => unknownNext (left.keeps keeping.left known), fun known => ?_⟩
      rcases List.mem_append.mp known with known | known
      · obtain ⟨other, member, named⟩ := List.mem_map.mp known
        obtain ⟨member, gains⟩ := List.mem_filter.mp member
        exact unknownNext (left.gains keeping.left ⟨other, member, named, gains⟩)
      · exact notGained known

theorem then_eases (gathers : Gathers source visits first second)
    (eases : Eases source second third) : Gathers source visits first third := by
  have both := gathers.chain (of_eases eases)
  rwa [Visits.chain, List.map_nil, List.append_nil] at both

theorem eases_then (eases : Eases source first second)
    (gathers : Gathers source visits second third) : Gathers source visits first third := by
  have both := (of_eases eases).chain gathers
  have same : Visit.after [] = id := rfl
  rwa [Visits.chain, List.nil_append, same, List.map_id] at both

end Gathers

end PhpAudit
