/-
This file proves that the report of a run does not depend on the order of its files. The issues are
collected file by file and sorted by file, line and first character; the sort keeps the order of equals.
Issues at one place come from one file, so whatever the order of the files is, they come in the order
in which that file reports them.

A list in the order of a key is determined by its parts with one key each. The sort gives a list in
order and leaves these parts alone, and the parts of the collected issues are those of single files.
-/

import Mathlib.Data.List.Nodup
import Mathlib.Data.List.Perm.Basic
import Mathlib.Data.Prod.Lex
import Mathlib.Data.String.Basic
import PhpAudit.Project

namespace PhpAudit

/-! ### Sorting by a key -/

section

variable {Item Key : Type} [LinearOrder Key] {key : Item → Key}

/-- The smallest key of a list in order is that of its first item. -/
theorem key_le_of_same {first second : Item} {others rest : List Item}
    (sorted : (second :: rest).Pairwise fun before after => key before ≤ key after)
    (same : ∀ wanted, (first :: others).filter (key · = wanted) =
      (second :: rest).filter (key · = wanted)) : key second ≤ key first := by
  have found : first ∈ (second :: rest).filter (key · = key first) := by
    rw [← same]
    simp
  rcases List.mem_cons.mp (List.mem_filter.mp found).1 with rfl | member
  · exact le_rfl
  · exact (List.pairwise_cons.mp sorted).1 first member

/-- Lists in the order of a key are equal if their items with each key are. -/
theorem eq_of_sorted {first second : List Item}
    (sortedFirst : first.Pairwise fun before after => key before ≤ key after)
    (sortedSecond : second.Pairwise fun before after => key before ≤ key after)
    (same : ∀ wanted, first.filter (key · = wanted) = second.filter (key · = wanted)) :
    first = second := by
  induction first generalizing second with
  | nil =>
    cases second with
    | nil => rfl
    | cons item rest => simpa using same (key item)
  | cons item rest inductionHypothesis =>
    cases second with
    | nil => simpa using same (key item)
    | cons other others =>
      have keys : key item = key other :=
        le_antisymm (key_le_of_same sortedFirst fun wanted => (same wanted).symm)
          (key_le_of_same sortedSecond same)
      have heads := same (key item)
      rw [List.filter_cons_of_pos (by simp), List.filter_cons_of_pos (by simp [keys])] at heads
      obtain ⟨rfl, -⟩ := List.cons.inj heads
      refine congrArg _ (inductionHypothesis (List.pairwise_cons.mp sortedFirst).2
        (List.pairwise_cons.mp sortedSecond).2 fun wanted => ?_)
      have parts := same wanted
      simp only [List.filter_cons] at parts
      split at parts
      · exact (List.cons.inj parts).2
      · exact parts

end

namespace Issue

/-- What issues are ordered by: the file, the line, and the first character. -/
def place (issue : Issue) : String ×ₗ Nat ×ₗ Nat :=
  toLex (issue.file, toLex (issue.line, issue.startChar))

theorem le_iff {first second : Issue} : le first second = true ↔ first.place ≤ second.place := by
  simp only [le, place, Prod.Lex.toLex_le_toLex]
  simp

theorem trans_le {first second third : Issue} (left : le first second = true)
    (right : le second third = true) : le first third = true :=
  le_iff.mpr (le_trans (le_iff.mp left) (le_iff.mp right))

theorem total_le (first second : Issue) : (le first second || le second first) = true := by
  rw [Bool.or_eq_true, le_iff, le_iff]
  exact le_total _ _

theorem pairwise_sort (issues : List Issue) :
    (sort issues).Pairwise fun before after => before.place ≤ after.place := by
  unfold sort
  exact (@List.pairwise_mergeSort Issue le (fun _ _ _ => trans_le) total_le issues).imp le_iff.mp

/-- Issues at one place keep their order. -/
theorem filter_sort (issues : List Issue) (wanted : String ×ₗ Nat ×ₗ Nat) :
    (sort issues).filter (place · = wanted) = issues.filter (place · = wanted) := by
  have alike : (issues.filter (place · = wanted)).Pairwise fun first second =>
      le first second = true := by
    refine List.pairwise_of_forall_mem_list fun first member second other => ?_
    have atFirst : first.place = wanted := by simpa using (List.mem_filter.mp member).2
    have atSecond : second.place = wanted := by simpa using (List.mem_filter.mp other).2
    rw [le_iff, atFirst, atSecond]
  have kept : (issues.filter (place · = wanted)).Sublist (issues.mergeSort le) :=
    @List.sublist_mergeSort Issue le issues (fun _ _ _ => trans_le) total_le _ alike
      List.filter_sublist
  have within := kept.filter (place · = wanted)
  rw [List.filter_filter] at within
  simp only [Bool.and_self] at within
  exact (within.eq_of_length_le ((List.mergeSort_perm issues le).filter _).length_eq.le).symm

/-! ### Issues of several files -/

/-- The issues of files, each with its name, in the order in which the files are given. -/
def collect (files : List (String × List Issue)) : List Issue :=
  files.foldl (fun collected file => collected ++ file.2) []

theorem collect_eq (files : List (String × List Issue)) : collect files = files.flatMap (·.2) := by
  have started (collected : List Issue) :
      files.foldl (fun collected file => collected ++ file.2) collected =
        collected ++ files.flatMap (·.2) := by
    induction files generalizing collected with
    | nil => simp
    | cons file rest inductionHypothesis =>
      rw [List.foldl_cons, inductionHypothesis, List.flatMap_cons, List.append_assoc]
  exact started []

section

variable {files : List (String × List Issue)}

/-- Other files have no issue at a place. -/
theorem filter_flatMap_of_other {wanted : String ×ₗ Nat ×ₗ Nat}
    (own : ∀ file ∈ files, ∀ issue ∈ file.2, issue.file = file.1)
    (other : ∀ file ∈ files, file.1 ≠ (ofLex wanted).1) :
    (files.flatMap (·.2)).filter (place · = wanted) = [] := by
  refine List.filter_eq_nil_iff.mpr fun issue member => ?_
  obtain ⟨file, known, found⟩ := List.mem_flatMap.mp member
  rw [decide_eq_true_eq]
  rintro rfl
  exact other file known (own file known issue found).symm

/-- The issues at a place are those of its file. -/
theorem filter_collect {wanted : String ×ₗ Nat ×ₗ Nat} {file : String × List Issue}
    (distinct : (files.map Prod.fst).Nodup)
    (own : ∀ file ∈ files, ∀ issue ∈ file.2, issue.file = file.1) (member : file ∈ files)
    (placed : (ofLex wanted).1 = file.1) :
    (collect files).filter (place · = wanted) = file.2.filter (place · = wanted) := by
  obtain ⟨before, after, rfl⟩ := List.append_of_mem member
  rw [List.map_append, List.map_cons, List.nodup_middle, List.nodup_cons, ← List.map_append,
    ← placed] at distinct
  have other (rest : List (String × List Issue)) (within : rest ⊆ before ++ after) :
      (rest.flatMap (·.2)).filter (place · = wanted) = [] := by
    refine filter_flatMap_of_other (fun known member => own known ?_) fun known member same => ?_
    · exact List.perm_middle.mem_iff.mpr (List.mem_cons_of_mem _ (within member))
    · exact distinct.1 (List.mem_map.mpr ⟨known, within member, same⟩)
  rw [collect_eq, List.flatMap_append, List.flatMap_cons, List.filter_append, List.filter_append,
    other before (List.subset_append_left _ _), other after (List.subset_append_right _ _),
    List.nil_append, List.append_nil]

theorem sort_collect_perm {order : List (String × List Issue)}
    (distinct : (files.map Prod.fst).Nodup)
    (own : ∀ file ∈ files, ∀ issue ∈ file.2, issue.file = file.1) (same : order.Perm files) :
    sort (collect order) = sort (collect files) := by
  have ownOrder : ∀ file ∈ order, ∀ issue ∈ file.2, issue.file = file.1 :=
    fun file member => own file (same.mem_iff.mp member)
  refine eq_of_sorted (pairwise_sort _) (pairwise_sort _) fun wanted => ?_
  rw [filter_sort, filter_sort]
  by_cases known : ∃ file ∈ files, file.1 = (ofLex wanted).1
  · obtain ⟨file, member, placed⟩ := known
    rw [filter_collect ((same.map _).nodup_iff.mpr distinct) ownOrder (same.mem_iff.mpr member)
      placed.symm, filter_collect distinct own member placed.symm]
  · have unknown : ∀ file ∈ files, file.1 ≠ (ofLex wanted).1 :=
      fun file member placed => known ⟨file, member, placed⟩
    rw [collect_eq, collect_eq, filter_flatMap_of_other own unknown,
      filter_flatMap_of_other ownOrder fun file member => unknown file (same.mem_iff.mp member)]

end

/--
The report of a run does not depend on the order of the files. If the files have distinct names, and each
issue has the name of its file, then the issues of all files, collected in any order and sorted, are the
same list. It is ordered by file, line and first character; it has the issues that were collected, each
as often as it was; and at every place of a file are the issues that the file has there, in its order.
-/
theorem report_independent_of_order (files : List (String × List Issue))
    (distinct : (files.map Prod.fst).Nodup)
    (own : ∀ file ∈ files, ∀ issue ∈ file.2, issue.file = file.1) :
    ∃ report : List Issue,
      (∀ order, order.Perm files → sort (collect order) = report) ∧
      report.Pairwise (fun before after => before.place ≤ after.place) ∧
      report.Perm (files.flatMap (·.2)) ∧
      ∀ file ∈ files, ∀ line startChar,
        report.filter (place · = toLex (file.1, toLex (line, startChar))) =
          file.2.filter fun issue => issue.line = line ∧ issue.startChar = startChar := by
  refine ⟨sort (collect files), fun order => sort_collect_perm distinct own, pairwise_sort _, ?_, ?_⟩
  · rw [← collect_eq]
    exact List.mergeSort_perm _ le
  · intro file member line startChar
    rw [filter_sort, filter_collect distinct own member rfl]
    refine List.filter_congr fun issue found => ?_
    simp [place, own file member issue found]

/-- Two files, the first of which has two issues at one place. -/
def tiedFiles : List (String × List Issue) :=
  [("b.php",
      [⟨"undefined", .error, "Undefined variable: $x", "b.php", 2, 5, 7⟩,
        ⟨"arrayAccess", .notice, "Array access to non-array type int", "b.php", 2, 5, 10⟩]),
    ("a.php", [⟨"deadCode", .warning, "Unreachable code", "a.php", 9, 0, 4⟩])]

/-- In either order of the files the two issues come as their file has them. -/
theorem report_independent_of_order_tiedFiles :
    (tiedFiles.map Prod.fst).Nodup ∧
      (∀ file ∈ tiedFiles, ∀ issue ∈ file.2, issue.file = file.1) ∧
      sort (collect tiedFiles.reverse) = sort (collect tiedFiles) ∧
      ((sort (collect tiedFiles.reverse)).filter
        (place · = toLex ("b.php", toLex (2, 5)))).map (·.check) = ["undefined", "arrayAccess"] := by
  have distinct : (tiedFiles.map Prod.fst).Nodup := by decide
  have own : ∀ file ∈ tiedFiles, ∀ issue ∈ file.2, issue.file = file.1 := by decide
  obtain ⟨report, same, -, -, kept⟩ := report_independent_of_order tiedFiles distinct own
  have turned := same tiedFiles.reverse (List.reverse_perm tiedFiles)
  refine ⟨distinct, own, turned.trans (same tiedFiles (.refl _)).symm, ?_⟩
  rw [turned]
  exact (congrArg _ (kept _ List.mem_cons_self 2 5)).trans (by decide)

end Issue

namespace Project

/-! ### The reporting phase -/

/-- What a file contributes to the report of a run. -/
def reported (project : Project) (index : Index) (input : Input) : List Issue :=
  match input.content with
  | .ok document => (document.walk index project.options .reporting).issues
  | .error reason =>
    [{ check := "io", severity := .error, message := input.complaint reason, file := input.name }]

theorem advance_reporting (project : Project) (progress : Progress) (input : Input) :
    ∃ next, project.advance .reporting progress input = .ok next ∧ next.index = progress.index ∧
      next.issues = progress.issues ++ project.reported progress.index input := by
  unfold advance reported
  cases input.content with
  | ok document => exact ⟨_, rfl, rfl, rfl⟩
  | error reason => exact ⟨_, rfl, rfl, rfl⟩

/-- The reporting phase never fails, and it collects the issues of the files. -/
theorem runPhase_reporting (project : Project) (inputs : List Input) :
    ∃ progress log, project.runPhase .reporting inputs = .ok (progress, log) ∧
      progress.issues = Issue.collect
        (inputs.map fun input => (input.name, project.reported project.index input)) := by
  have steps (progress : Progress) (kept : progress.index = project.index) :
      ∃ last, inputs.foldlM (project.advance .reporting) progress = .ok last ∧
        last.issues = progress.issues ++ inputs.flatMap (project.reported project.index) := by
    induction inputs generalizing progress with
    | nil => exact ⟨progress, rfl, by simp⟩
    | cons input rest inductionHypothesis =>
      obtain ⟨next, advanced, index, issues⟩ := project.advance_reporting progress input
      obtain ⟨last, finished, collected⟩ := inductionHypothesis next (index.trans kept)
      refine ⟨last, ?_, ?_⟩
      · rw [List.foldlM_cons, advanced]
        exact finished
      · rw [collected, issues, kept, List.flatMap_cons, List.append_assoc]
  obtain ⟨last, finished, collected⟩ := steps { index := project.index } rfl
  refine ⟨last, [.phaseStarted .reporting inputs.length] ++ last.crowded ++ last.failed ++
    [.phaseDone .reporting inputs.length last.issues.length], ?_, ?_⟩
  · rw [runPhase, finished]
    rfl
  · rw [collected, Issue.collect_eq, List.flatMap_map]
    rfl

end Project

end PhpAudit
