/-
This file compares the order in which code runs with the order in which a walk visits its variables.
Everything that a run does to a variable is done at some visit. If a run writes a variable and takes
its value later, then the write is visited before, unless it stands in a loop or is marked as one that
runs early.

The rules below put such statements together as the runs of code are put together from those of its
parts. Within an expression they also say that the later visit knows of the earlier one.
-/

import PhpAudit.Proofs.Flow.Seeing

namespace PhpAudit

open Execution Visits

/-! ### Events and visits -/

/-- The event takes the value of the variable, if it has one. -/
def Execution.Event.Takes (name : String) : Event → Prop
  | .read other _ | .probe other _ => other = name
  | .write .. | .unset _ => False

/-- The event gives a variable a value. -/
def Execution.Event.Writes : Event → Prop
  | .write .. => True
  | .read .. | .probe .. | .unset _ => False

namespace Visit

/-- The variable is given a value, or bound by reference. -/
def stores (visit : Visit) : Bool :=
  match visit.use with
  | .used | .assigned _ => true
  | .captured byRef => byRef
  | .probed | .unset | .tested | .nested => false

/--
The event happens where the walk makes the visit. A variable is also taken where it is the target of
an early assignment: `[$x] ??= 1`, which is no valid code, would look at the variable first.
-/
def Shows (visit : Visit) : Event → Prop
  | .read name span | .probe name span => visit.name = name ∧ visit.span = span ∧
    (visit.clears = true ∨ visit.early = true ∧ visit.stores = true)
  | .write name span => visit.name = name ∧ visit.span = span ∧ visit.stores = true
  | .unset name => visit.name = name ∧ visit.use = .unset

end Visit

theorem Relabels.stores {change : Visit → Visit} (relabels : Relabels change) (visit : Visit) :
    (change visit).stores = visit.stores := by
  unfold Visit.stores
  rw [relabels.use]

/-- A change that takes no visit back to its turn. -/
theorem Relabels.shows {change : Visit → Visit} (relabels : Relabels change) {visit : Visit}
    {event : Event} (early : visit.early = true → (change visit).early = true)
    (shows : visit.Shows event) : (change visit).Shows event := by
  cases event <;> simp only [Visit.Shows, relabels.name, relabels.span, relabels.use,
    relabels.stores, relabels.clears] at *
  case read | probe =>
    exact ⟨shows.1, shows.2.1, shows.2.2.imp_right (And.imp_left early)⟩
  case write | unset => exact shows

namespace Execution

variable {Exit Other : Type} {visits others : List Visit}

/-- Every event of a run happens at some visit. -/
def Shown (visits : List Visit) (runs : Runs Exit) : Prop :=
  ∀ run ∈ runs, ∀ event ∈ run.trace, ∃ visit ∈ visits, visit.Shows event

/-- Every event of a run happens at some visit, and writes happen at early ones. -/
def Hastened (visits : List Visit) (runs : Runs Exit) : Prop :=
  ∀ run ∈ runs, ∀ event ∈ run.trace,
    ∃ visit ∈ visits, visit.Shows event ∧ (event.Writes → visit.early = true)

/--
Every event of a run happens at some visit. Where a run writes a variable and takes its value later,
the visits of the two are linked.
-/
structure Follows (link : List Visit → Visit → Visit → Prop) (visits : List Visit)
    (runs : Runs Exit) : Prop where
  shown : Shown visits runs
  ordered : ∀ run ∈ runs, ∀ {name : String} {span : Span} {taken : Event}, taken.Takes name →
    [.write name span, taken].Sublist run.trace →
      ∃ writer ∈ visits, ∃ taker ∈ visits,
        writer.Shows (.write name span) ∧ taker.Shows taken ∧ link visits writer taker

/-- Within an expression the writer is early, or comes first and is known to the taker. -/
def Threaded (visits : List Visit) (writer taker : Visit) : Prop :=
  writer.early = true ∨
    [writer, taker].Sublist visits ∧ (writer.gains = true → writer.name ∈ taker.known)

/-- The writer is early or stands in a loop, or it comes first. -/
def Placed (visits : List Visit) (writer taker : Visit) : Prop :=
  writer.loose = true ∨ [writer, taker].Sublist visits

abbrev Threads (visits : List Visit) (runs : Runs Exit) : Prop :=
  Follows Threaded visits runs

abbrev Orders (visits : List Visit) (runs : Runs Exit) : Prop :=
  Follows Placed visits runs

/-- Two elements in order stand both in one part of a list, or one in each. -/
theorem pair_sublist_append {Item : Type} {first second : Item} {left right : List Item}
    (pair : [first, second].Sublist (left ++ right)) :
    [first, second].Sublist left ∨ [first, second].Sublist right ∨ first ∈ left ∧ second ∈ right := by
  obtain ⟨before, after, equal, inLeft, inRight⟩ := List.sublist_append_iff.mp pair
  rcases before with _ | ⟨head, _ | ⟨next, rest⟩⟩
  · rw [List.nil_append] at equal
    exact .inr (.inl (equal ▸ inRight))
  · simp only [List.cons_append, List.nil_append, List.cons.injEq] at equal
    rw [← equal.1, List.singleton_sublist] at inLeft
    rw [← equal.2, List.singleton_sublist] at inRight
    exact .inr (.inr ⟨inLeft, inRight⟩)
  · simp only [List.cons_append, List.cons.injEq, List.nil_eq, List.append_eq_nil_iff] at equal
    rw [← equal.1, ← equal.2.1, equal.2.2.1] at inLeft
    exact .inl inLeft

/-- A run of two pieces of code is a run of the first, and of the second unless that was left. -/
theorem Runs.exists_of_mem_seq {first second : Runs Exit} {run : Run Exit}
    (member : run ∈ first.seq second) : ∃ before ∈ first, ∃ later,
      run.trace = before.trace ++ later ∧ (later = [] ∨ ∃ after ∈ second, after.trace = later) := by
  rcases Runs.mem_seq.mp member with ⟨only, _⟩ | ⟨before, start, _, after, follows, rfl⟩
  · exact ⟨run, only, [], (List.append_nil _).symm, .inl rfl⟩
  · exact ⟨before, start, after.trace, rfl, .inr ⟨after, follows, rfl⟩⟩

/-! ### Events of runs -/

namespace Shown

theorem silent {runs : Runs Exit} (silent : ∀ run ∈ runs, run.trace = []) : Shown visits runs :=
  fun run member event present => by
    rw [silent run member] at present
    exact absurd present List.not_mem_nil

theorem mono {runs : Runs Exit} (shown : Shown visits runs) (included : visits ⊆ others) :
    Shown others runs :=
  fun run member event present =>
    (shown run member event present).imp fun _ ⟨found, shows⟩ => ⟨included found, shows⟩

theorem union {first second : Runs Exit} (left : Shown visits first) (right : Shown visits second) :
    Shown visits (first ∪ second) :=
  fun run member => member.elim (left run) (right run)

theorem bind {first : Runs Exit} {next : Option Exit → Runs Other} (left : Shown visits first)
    (right : ∀ exit, Shown visits (next exit)) : Shown visits (first.bind next) := by
  rintro _ ⟨before, member, after, follows, rfl⟩ event present
  exact (List.mem_append.mp present).elim (left before member event)
    (right before.exit after follows event)

theorem seq {first second : Runs Exit} (left : Shown visits first) (right : Shown visits second) :
    Shown visits (first.seq second) :=
  left.bind fun
    | none => right
    | some _ => .silent fun _ member => member.1

theorem optional {runs : Runs Exit} (shown : Shown visits runs) : Shown visits runs.optional :=
  .union (.silent fun _ member => member.1) shown

theorem relabel {runs : Runs Exit} {change : Visit → Visit} (shown : Shown visits runs)
    (relabels : Relabels change) (early : ∀ visit, visit.early = true → (change visit).early = true) :
    Shown (visits.map change) runs := by
  intro run member event present
  obtain ⟨visit, found, shows⟩ := shown run member event present
  exact ⟨change visit, List.mem_map_of_mem found, relabels.shows (early visit) shows⟩

theorem hasten {runs : Runs Exit} (shown : Shown visits runs) :
    Shown (visits.map Visit.hasten) runs :=
  shown.relabel .hasten fun _ _ => rfl

theorem left {runs : Runs Exit} (shown : Shown visits runs) (others : List Visit) :
    Shown (chain visits others) runs :=
  shown.mono fun _ => List.mem_append_left _

theorem right {runs : Runs Exit} (shown : Shown others runs) (visits : List Visit) :
    Shown (chain visits others) runs :=
  (shown.relabel (.after visits) fun _ => id).mono fun _ => List.mem_append_right _

end Shown

/-- The runs of the parts of a composition without events of its own. -/
theorem silent_ending (exits : List (Option Exit)) : ∀ run ∈ Runs.ending exits, run.trace = [] :=
  fun _ member => member.1

theorem silent_leave (exit : Exit) : ∀ run ∈ Runs.leave exit, run.trace = [] :=
  silent_ending [some exit]

theorem silent_done : ∀ run ∈ (Runs.done : Runs Exit), run.trace = [] :=
  silent_ending [none]

theorem silent_attempt : ∀ run ∈ Runs.attempt, run.trace = [] :=
  silent_ending _

theorem silent_callee (returns : Bool) : ∀ run ∈ Runs.callee returns, run.trace = [] := by
  unfold Runs.callee
  split <;> exact silent_ending _

theorem Shown.emit {visit : Visit} {event : Event} (member : visit ∈ visits)
    (shows : visit.Shows event) : Shown visits (Runs.emit event : Runs Exit) := by
  rintro _ rfl other present
  rw [List.mem_singleton.mp present]
  exact ⟨visit, member, shows⟩

namespace Hastened

theorem shown {runs : Runs Exit} (hastened : Hastened visits runs) : Shown visits runs :=
  fun run member event present =>
    (hastened run member event present).imp fun _ => And.imp_right And.left

theorem silent {runs : Runs Exit} (silent : ∀ run ∈ runs, run.trace = []) : Hastened visits runs :=
  fun run member event present => by
    rw [silent run member] at present
    exact absurd present List.not_mem_nil

theorem mono {runs : Runs Exit} (hastened : Hastened visits runs) (included : visits ⊆ others) :
    Hastened others runs :=
  fun run member event present =>
    (hastened run member event present).imp fun _ ⟨found, shows⟩ => ⟨included found, shows⟩

theorem union {first second : Runs Exit} (left : Hastened visits first)
    (right : Hastened visits second) : Hastened visits (first ∪ second) :=
  fun run member => member.elim (left run) (right run)

theorem bind {first : Runs Exit} {next : Option Exit → Runs Other} (left : Hastened visits first)
    (right : ∀ exit, Hastened visits (next exit)) : Hastened visits (first.bind next) := by
  rintro _ ⟨before, member, after, follows, rfl⟩ event present
  exact (List.mem_append.mp present).elim (left before member event)
    (right before.exit after follows event)

theorem seq {first second : Runs Exit} (left : Hastened visits first)
    (right : Hastened visits second) : Hastened visits (first.seq second) :=
  left.bind fun
    | none => right
    | some exit => .silent (silent_leave exit)

theorem optional {runs : Runs Exit} (hastened : Hastened visits runs) :
    Hastened visits runs.optional :=
  .union (.silent silent_done) hastened

/-- Visits that are marked as early. -/
theorem of_hasten {runs : Runs Exit} (shown : Shown (visits.map Visit.hasten) runs) :
    Hastened (visits.map Visit.hasten) runs := by
  intro run member event present
  obtain ⟨visit, found, shows⟩ := shown run member event present
  refine ⟨visit, found, shows, fun _ => ?_⟩
  obtain ⟨old, _, rfl⟩ := List.mem_map.mp found
  rfl

theorem of_shown {runs : Runs Exit} (shown : Shown visits runs) :
    Hastened (visits.map Visit.hasten) runs :=
  .of_hasten shown.hasten

theorem hastenIf {runs : Runs Exit} (hastened : Hastened visits runs) (early : Bool) :
    Hastened (Visits.hastenIf early visits) runs := by
  cases early with
  | true => exact .of_shown hastened.shown
  | false => exact hastened

theorem of_no_writes {runs : Runs Exit} (shown : Shown visits runs)
    (reads : ∀ run ∈ runs, ∀ event ∈ run.trace, ¬ event.Writes) : Hastened visits runs := by
  intro run member event present
  obtain ⟨visit, found, shows⟩ := shown run member event present
  exact ⟨visit, found, shows, fun writes => absurd writes (reads run member event present)⟩

/-- A single event that is not a write. -/
theorem emit {visit : Visit} {event : Event} (member : visit ∈ visits)
    (shows : visit.Shows event) (reads : ¬ event.Writes) :
    Hastened visits (Runs.emit event : Runs Exit) := by
  refine .of_no_writes (.emit member shows) ?_
  rintro _ rfl other present
  rwa [List.mem_singleton.mp present]

theorem left {runs : Runs Exit} (hastened : Hastened visits runs) (others : List Visit) :
    Hastened (chain visits others) runs :=
  hastened.mono fun _ => List.mem_append_left _

theorem right {runs : Runs Exit} (hastened : Hastened others runs) (visits : List Visit) :
    Hastened (chain visits others) runs := by
  intro run member event present
  obtain ⟨visit, found, shows, early⟩ := hastened run member event present
  exact ⟨visit.after visits, List.mem_append_right _ (List.mem_map_of_mem found),
    (Relabels.after visits).shows id shows, early⟩

end Hastened

/-! ### Linked events -/

namespace Follows

variable {link : List Visit → Visit → Visit → Prop}

theorem silent {runs : Runs Exit} (silent : ∀ run ∈ runs, run.trace = []) :
    Follows link visits runs where
  shown := .silent silent
  ordered run member _ _ _ _ pair := by
    rw [silent run member] at pair
    exact absurd (List.sublist_nil.mp pair) (List.cons_ne_nil _ _)

theorem subset {first second : Runs Exit} (follows : Follows link visits second)
    (included : first ⊆ second) : Follows link visits first where
  shown run member := follows.shown run (included member)
  ordered run member := follows.ordered run (included member)

theorem union {first second : Runs Exit} (left : Follows link visits first)
    (right : Follows link visits second) : Follows link visits (first ∪ second) where
  shown := left.shown.union right.shown
  ordered run member _ _ _ takes pair :=
    member.elim (left.ordered run · takes pair) (right.ordered run · takes pair)

theorem optional {runs : Runs Exit} (follows : Follows link visits runs) :
    Follows link visits runs.optional :=
  .union (.silent silent_done) follows

/-- A single event. -/
theorem emit {visit : Visit} {event : Event} (member : visit ∈ visits)
    (shows : visit.Shows event) : Follows link visits (Runs.emit event : Runs Exit) where
  shown := .emit member shows
  ordered := by
    rintro _ rfl name span taken _ pair
    exact absurd pair.length_le (by simp)

/-- What comes after takes no value. -/
theorem then_writes {first second : Runs Exit} (left : Follows link visits first)
    (right : Shown visits second)
    (writes : ∀ run ∈ second, ∀ event ∈ run.trace, ∀ name, ¬ event.Takes name) :
    Follows link visits (first.seq second) := by
  refine ⟨left.shown.seq right, fun run member name span taken takes pair => ?_⟩
  obtain ⟨before, member, later, equal, follows⟩ := Runs.exists_of_mem_seq member
  have untaken : ∀ event ∈ later, ¬ event.Takes name := by
    rcases follows with rfl | ⟨after, follows, rfl⟩
    · exact fun _ none => absurd none List.not_mem_nil
    · exact fun event present => writes after follows event present name
  rw [equal] at pair
  rcases pair_sublist_append pair with pair | pair | ⟨_, present⟩
  · exact left.ordered before member takes pair
  · exact absurd takes (untaken taken (pair.subset (.tail _ (.head _))))
  · exact absurd takes (untaken taken present)

/-- Code without events may come after. -/
theorem then_silent {first second : Runs Exit} (follows : Follows link visits first)
    (silent : ∀ run ∈ second, run.trace = []) : Follows link visits (first.seq second) :=
  follows.then_writes (.silent silent) fun run member event present => by
    rw [silent run member] at present
    exact absurd present List.not_mem_nil

/-- Code that writes at loose visits only may come before. -/
theorem then_follows {first second : Runs Exit} (left : Shown visits first)
    (loose : ∀ run ∈ first, ∀ event ∈ run.trace, event.Writes → ∃ visit ∈ visits,
      visit.Shows event ∧ ∀ taker, link visits visit taker)
    (right : Follows link visits second) : Follows link visits (first.seq second) := by
  refine ⟨left.seq right.shown, fun run member name span taken takes pair => ?_⟩
  have shown := left.seq right.shown run member
  obtain ⟨before, member, later, equal, follows⟩ := Runs.exists_of_mem_seq member
  rw [equal] at pair shown
  have early (write : Event.write name span ∈ before.trace) : ∃ writer ∈ visits,
      ∃ taker ∈ visits, writer.Shows (.write name span) ∧ taker.Shows taken ∧
        link visits writer taker := by
    obtain ⟨writer, found, shows, link⟩ := loose before member _ write trivial
    obtain ⟨taker, foundTaker, showsTaken⟩ := shown taken (pair.subset (.tail _ (.head _)))
    exact ⟨writer, found, taker, foundTaker, shows, showsTaken, link taker⟩
  rcases pair_sublist_append pair with pair | pair | ⟨write, _⟩
  · exact early (pair.subset (.head _))
  · rcases follows with rfl | ⟨after, follows, rfl⟩
    · exact absurd (List.sublist_nil.mp pair) (List.cons_ne_nil _ _)
    · exact right.ordered after follows takes pair
  · exact early write

/-- Code without events may come before. -/
theorem silent_then {first second : Runs Exit} (silent : ∀ run ∈ first, run.trace = [])
    (follows : Follows link visits second) : Follows link visits (first.seq second) :=
  then_follows (.silent silent) (fun run member event present => by
    rw [silent run member] at present
    exact absurd present List.not_mem_nil) follows

end Follows

namespace Threads

theorem sublist {runs : Runs Exit} (threads : Threads visits runs)
    (included : visits.Sublist others) : Threads others runs where
  shown := threads.shown.mono included.subset
  ordered run member _ _ _ takes pair := by
    obtain ⟨writer, foundWriter, taker, foundTaker, shows, showsTaken, link⟩ :=
      threads.ordered run member takes pair
    exact ⟨writer, included.subset foundWriter, taker, included.subset foundTaker, shows, showsTaken,
      link.imp_right (And.imp_left (·.trans included))⟩

/-- Code that comes after other code of the same expression. -/
theorem bind {first : Runs Exit} {next : Option Exit → Runs Other} (left : Threads visits first)
    (right : ∀ exit, Threads others (next exit)) :
    Threads (chain visits others) (first.bind next) := by
  have relabels := Relabels.after visits
  refine ⟨.bind (left.shown.mono fun _ => List.mem_append_left _) fun exit =>
    ((right exit).shown.relabel relabels fun _ => id).mono fun _ => List.mem_append_right _, ?_⟩
  rintro _ ⟨before, member, after, follows, rfl⟩ name span taken takes pair
  rcases pair_sublist_append pair with pair | pair | ⟨write, take⟩
  · exact (left.sublist (List.sublist_append_left _ _)).ordered before member takes pair
  · obtain ⟨writer, foundWriter, taker, foundTaker, shows, showsTaken, link⟩ :=
      (right before.exit).ordered after follows takes pair
    refine ⟨writer.after visits, List.mem_append_right _ (List.mem_map_of_mem foundWriter),
      taker.after visits, List.mem_append_right _ (List.mem_map_of_mem foundTaker),
      relabels.shows id shows, relabels.shows id showsTaken, ?_⟩
    refine link.imp_right (And.imp (fun inOrder => ?_) fun known gains => ?_)
    · exact (inOrder.map (Visit.after visits)).trans (List.sublist_append_right _ _)
    · exact List.mem_append_right _ (known gains)
  · obtain ⟨writer, foundWriter, shows⟩ := left.shown before member _ write
    obtain ⟨taker, foundTaker, showsTaken⟩ := (right before.exit).shown after follows _ take
    refine ⟨writer, List.mem_append_left _ foundWriter, taker.after visits,
      List.mem_append_right _ (List.mem_map_of_mem foundTaker), shows, relabels.shows id showsTaken,
      .inr ⟨?_, fun gains => ?_⟩⟩
    · exact (List.singleton_sublist.mpr foundWriter).append
        (List.singleton_sublist.mpr (List.mem_map_of_mem foundTaker))
    · exact List.mem_append_left _ (List.mem_map_of_mem (List.mem_filter.mpr ⟨foundWriter, gains⟩))

theorem seq {first second : Runs Exit} (left : Threads visits first)
    (right : Threads others second) : Threads (chain visits others) (first.seq second) :=
  left.bind fun
    | none => right
    | some exit => .silent (silent_leave exit)

theorem left {runs : Runs Exit} (threads : Threads visits runs) (others : List Visit) :
    Threads (chain visits others) runs :=
  threads.sublist (List.sublist_append_left _ _)

theorem right {runs : Runs Exit} (threads : Threads others runs) (visits : List Visit) :
    Threads (chain visits others) runs := by
  have nothing : Threads visits (Runs.done : Runs Exit) := .silent silent_done
  have both := nothing.seq threads
  rwa [Runs.done_seq] at both

/-- Code at early visits may come before. -/
theorem hastened_then {first second : Runs Exit} (hastened : Hastened visits first)
    (threads : Threads visits second) : Threads visits (first.seq second) :=
  .then_follows hastened.shown (fun run member event present writes =>
    (hastened run member event present).imp fun _ ⟨found, shows, early⟩ =>
      ⟨found, shows, fun _ => .inl (early writes)⟩) threads

theorem of_hastened {runs : Runs Exit} (hastened : Hastened visits runs) : Threads visits runs := by
  have nothing : Threads visits (Runs.done : Runs Exit) := .silent silent_done
  have both := hastened_then hastened nothing
  rwa [Runs.seq_done] at both

theorem hastenIf {runs : Runs Exit} (threads : Threads visits runs) (early : Bool) :
    Threads (Visits.hastenIf early visits) runs := by
  cases early with
  | true => exact .of_hastened (.of_shown threads.shown)
  | false => exact threads

/-- An assignment: the value is visited first, and evaluated after the operands of the target. -/
theorem assign {placed value stored : Runs Exit} (place : Hastened others placed)
    (taken : Threads visits value) (store : Threads others stored) :
    Threads (chain visits others) ((placed.seq value).seq stored) := by
  rw [Runs.seq_assoc]
  exact .hastened_then (place.right visits) (taken.seq store)

end Threads

namespace Orders

theorem of_threads {runs : Runs Exit} (threads : Threads visits runs) : Orders visits runs where
  shown := threads.shown
  ordered run member _ _ _ takes pair := by
    obtain ⟨writer, foundWriter, taker, foundTaker, shows, showsTaken, link⟩ :=
      threads.ordered run member takes pair
    refine ⟨writer, foundWriter, taker, foundTaker, shows, showsTaken, link.imp ?_ And.left⟩
    intro early
    rw [Visit.loose, early, Bool.true_or]

/-- Visits in loops; nothing is said about their order. -/
theorem of_loose {runs : Runs Exit} (shown : Shown visits runs)
    (loose : ∀ visit ∈ visits, visit.loose = true) : Orders visits runs where
  shown := shown
  ordered run member _ _ _ _ pair := by
    obtain ⟨writer, foundWriter, shows⟩ := shown run member _ (pair.subset (.head _))
    obtain ⟨taker, foundTaker, showsTaken⟩ :=
      shown run member _ (pair.subset (.tail _ (.head _)))
    exact ⟨writer, foundWriter, taker, foundTaker, shows, showsTaken, .inl (loose writer foundWriter)⟩

theorem sublist {runs : Runs Exit} (orders : Orders visits runs)
    (included : visits.Sublist others) : Orders others runs where
  shown := orders.shown.mono included.subset
  ordered run member _ _ _ takes pair := by
    obtain ⟨writer, foundWriter, taker, foundTaker, shows, showsTaken, link⟩ :=
      orders.ordered run member takes pair
    exact ⟨writer, included.subset foundWriter, taker, included.subset foundTaker, shows, showsTaken,
      link.imp_right (·.trans included)⟩

/-- Code that comes after other code. -/
theorem bind {first : Runs Exit} {next : Option Exit → Runs Other} (left : Orders visits first)
    (right : ∀ exit, Orders others (next exit)) : Orders (visits ++ others) (first.bind next) := by
  refine ⟨.bind (left.shown.mono fun _ => List.mem_append_left _) fun exit =>
    (right exit).shown.mono fun _ => List.mem_append_right _, ?_⟩
  rintro _ ⟨before, member, after, follows, rfl⟩ name span taken takes pair
  rcases pair_sublist_append pair with pair | pair | ⟨write, take⟩
  · exact (left.sublist (List.sublist_append_left _ _)).ordered before member takes pair
  · exact ((right before.exit).sublist (List.sublist_append_right _ _)).ordered after follows takes
      pair
  · obtain ⟨writer, foundWriter, shows⟩ := left.shown before member _ write
    obtain ⟨taker, foundTaker, showsTaken⟩ := (right before.exit).shown after follows _ take
    exact ⟨writer, List.mem_append_left _ foundWriter, taker, List.mem_append_right _ foundTaker,
      shows, showsTaken, .inr ((List.singleton_sublist.mpr foundWriter).append
        (List.singleton_sublist.mpr foundTaker))⟩

theorem seq {first second : Runs Exit} (left : Orders visits first) (right : Orders others second) :
    Orders (visits ++ others) (first.seq second) :=
  left.bind fun
    | none => right
    | some exit => .silent (silent_leave exit)

theorem lift {runs : Runs Abort} (orders : Orders visits runs) : Orders visits runs.lift := by
  have both : Orders (visits ++ []) runs.lift := orders.bind fun
    | none => .silent silent_done
    | some abort => .silent (silent_leave (Leave.aborted abort))
  rwa [List.append_nil] at both

end Orders

end Execution

end PhpAudit
