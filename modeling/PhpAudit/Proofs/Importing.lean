/-
This file says what the items of `use` statements make known in a naming context: under each name, what
the last item that gives it imports. Classes, functions and constants have tables of their own; names
of constants count letter for letter, the others are folded. The context is the fold of the items over
one that imports nothing, and its tables are described apart from that fold.
-/

import Mathlib.Data.List.TakeWhile
import PhpAudit.FileWalk

namespace PhpAudit

/-! ### Names of items -/

/-- The name under which an item can be used: its alias, or else the last part of its full name. -/
def Import.KnownAs (item : Import) (shortName : String) : Prop :=
  match item.rename with
  | some rename => shortName = rename
  | none => '\\' ∉ shortName.toList ∧
      (item.name = shortName ∨ ∃ outer, item.name = outer ++ "\\" ++ shortName)

/-- The spelling under which a name is looked up. -/
def ImportKind.key : ImportKind → String → String
  | .classLike | .function => Text.lower
  | .constant => id

/-- The item makes something known under the key, in the table of its kind. -/
def Import.Registers (item : Import) (kind : ImportKind) (key : String) : Prop :=
  item.kind = kind ∧ ∃ shortName, item.KnownAs shortName ∧ kind.key shortName = key

/-- The last of the items that registers under the key imports the target. -/
def Imported (items : List Import) (kind : ImportKind) (key target : String) : Prop :=
  ∃ before item after, items = before ++ item :: after ∧ item.Registers kind key ∧
    target = "\\" ++ Text.withoutRoot item.name ∧ ∀ later ∈ after, ¬ later.Registers kind key

namespace FileWalk

/-- The last part of a name is what follows its last `\`. -/
theorem lastPart_eq_iff {name shortName : String} :
    lastPart name = shortName ↔ '\\' ∉ shortName.toList ∧
      (name = shortName ∨ ∃ outer, name = outer ++ "\\" ++ shortName) := by
  let plain : Char → Bool := (· != '\\')
  let letters := name.toList.reverse
  have spelled : (lastPart name).toList = (letters.takeWhile plain).reverse := String.toList_ofList
  have whole : letters.takeWhile plain ++ letters.dropWhile plain = letters :=
    List.takeWhile_append_dropWhile
  constructor
  · rintro rfl
    constructor
    · intro member
      rw [spelled, List.mem_reverse] at member
      simpa [plain] using List.mem_takeWhile_imp member
    · cases before : letters.dropWhile plain with
      | nil =>
        left
        rw [before, List.append_nil] at whole
        rw [← String.toList_inj, spelled, whole, List.reverse_reverse]
      | cons letter outer =>
        right
        have ends : plain letter = false := by
          have found := List.find?_not_eq_head?_dropWhile plain letters
          rw [before, List.head?_cons] at found
          simpa using List.find?_some found
        obtain rfl : letter = '\\' := by simpa [plain] using ends
        refine ⟨String.ofList outer.reverse, ?_⟩
        have turned := congrArg List.reverse whole
        rw [before] at turned
        rw [← String.toList_inj]
        simpa [spelled, letters] using turned.symm
  · rintro ⟨last, whole⟩
    have own : ∀ letter ∈ shortName.toList.reverse, plain letter = true := by
      intro letter member
      simp only [plain, bne_iff_ne]
      rintro rfl
      exact last (List.mem_reverse.mp member)
    rw [← String.toList_inj, spelled]
    rcases whole with rfl | ⟨outer, rfl⟩
    · rw [List.takeWhile_eq_self_iff.mpr own, List.reverse_reverse]
    · have turned : letters = shortName.toList.reverse ++ '\\' :: outer.toList.reverse := by
        simp [letters]
      rw [turned, List.takeWhile_append_of_pos own]
      simp [plain]

end FileWalk

theorem Import.knownAs_iff (item : Import) (shortName : String) :
    item.KnownAs shortName ↔ item.rename.getD (FileWalk.lastPart item.name) = shortName := by
  unfold KnownAs
  cases item.rename with
  | some rename => exact eq_comm
  | none => exact FileWalk.lastPart_eq_iff.symm

theorem Import.registers_iff (item : Import) (kind : ImportKind) (key : String) :
    item.Registers kind key ↔
      item.kind = kind ∧ kind.key (item.rename.getD (FileWalk.lastPart item.name)) = key := by
  simp only [Registers, knownAs_iff, exists_eq_left']

/-- What later items register counts. -/
theorem imported_cons {item : Import} {rest : List Import} {kind : ImportKind} {key target : String} :
    Imported (item :: rest) kind key target ↔ Imported rest kind key target ∨
      item.Registers kind key ∧ target = "\\" ++ Text.withoutRoot item.name ∧
        ∀ later ∈ rest, ¬ later.Registers kind key := by
  constructor
  · rintro ⟨before, last, after, whole, registers, same, later⟩
    rcases List.cons_eq_append_iff.mp whole with ⟨rfl, equal⟩ | ⟨before, rfl, rfl⟩
    · obtain ⟨rfl, rfl⟩ := List.cons.inj equal
      exact .inr ⟨registers, same, later⟩
    · exact .inl ⟨before, last, after, rfl, registers, same, later⟩
  · rintro (⟨before, last, after, rfl, found⟩ | found)
    · exact ⟨item :: before, last, after, rfl, found⟩
    · exact ⟨[], item, rest, rfl, found⟩

/-! ### Contexts -/

/-- The names that a context knows by imports of a kind. -/
def Naming.imported (naming : Naming) : ImportKind → Std.TreeMap String String
  | .classLike => naming.classes
  | .function => naming.functions
  | .constant => naming.constants

/-- The namespace of a context, and the class and the function around the code. -/
def Naming.around (naming : Naming) : String × String × String × String × Bool :=
  (naming.space, naming.owner, naming.parent, naming.function, naming.inTrait)

namespace FileWalk

variable {naming : Naming} {item : Import} {kind : ImportKind} {key target : String}

/-- An item leaves a context as it is but for one table. -/
theorem imported_addImport (naming : Naming) (item : Import) (kind : ImportKind) :
    (addImport naming item).imported kind =
      if item.kind = kind then
        (naming.imported kind).insert (kind.key (item.rename.getD (lastPart item.name)))
          ("\\" ++ Text.withoutRoot item.name)
      else naming.imported kind := by
  unfold addImport
  cases item.kind <;> cases kind <;> rfl

theorem getElem?_addImport_self (registers : item.Registers kind key) :
    ((addImport naming item).imported kind)[key]? = some ("\\" ++ Text.withoutRoot item.name) := by
  obtain ⟨same, rfl⟩ := (item.registers_iff kind key).mp registers
  rw [imported_addImport, if_pos same, Std.TreeMap.getElem?_insert_self]

theorem getElem?_addImport_other (other : ¬ item.Registers kind key) :
    ((addImport naming item).imported kind)[key]? = (naming.imported kind)[key]? := by
  rw [item.registers_iff] at other
  rw [imported_addImport]
  split
  · next same =>
    rw [Std.TreeMap.getElem?_insert, if_neg]
    exact fun equal => other ⟨same, Std.LawfulEqCmp.eq_of_compare equal⟩
  · rfl

/-- What the items do not register is as it was before. -/
theorem getElem?_foldl_addImport (items : List Import) :
    ((items.foldl addImport naming).imported kind)[key]? = some target ↔
      Imported items kind key target ∨
        (∀ item ∈ items, ¬ item.Registers kind key) ∧ (naming.imported kind)[key]? = some target := by
  induction items generalizing naming with
  | nil =>
    have empty : ¬ Imported [] kind key target := by
      rintro ⟨before, item, after, whole, -⟩
      exact List.append_ne_nil_of_right_ne_nil before (List.cons_ne_nil item after) whole.symm
    simp [empty]
  | cons item rest inductionHypothesis =>
    rw [List.foldl_cons, inductionHypothesis, imported_cons, List.forall_mem_cons]
    by_cases registers : item.Registers kind key
    · rw [getElem?_addImport_self registers, Option.some.injEq]
      simp only [registers, true_and, not_true_eq_false, false_and, or_false]
      exact or_congr_right (and_comm.trans (and_congr_left' eq_comm))
    · rw [getElem?_addImport_other registers]
      simp only [registers, false_and, or_false, not_false_eq_true, true_and]

/-- The tables of a context whose items come after one that imports nothing. -/
theorem getElem?_imports (space : Option String) (items : List Import) :
    ((items.foldl addImport (.ofNamespace space)).imported kind)[key]? = some target ↔
      Imported items kind key target := by
  have nothing : ((Naming.ofNamespace space).imported kind)[key]? = none := by
    unfold Naming.ofNamespace
    split
    · cases kind <;> exact Std.TreeMap.getElem?_emptyc
    · split <;> cases kind <;> exact Std.TreeMap.getElem?_emptyc
  rw [getElem?_foldl_addImport, nothing]
  simp

/-- An item imports names and does nothing else. -/
theorem around_addImport (naming : Naming) (item : Import) :
    (addImport naming item).around = naming.around := by
  unfold addImport
  dsimp only
  split <;> rfl

theorem around_foldl_addImport (naming : Naming) (items : List Import) :
    (items.foldl addImport naming).around = naming.around := by
  induction items generalizing naming with
  | nil => rfl
  | cons item rest inductionHypothesis =>
    rw [List.foldl_cons, inductionHypothesis, around_addImport]

end FileWalk

end PhpAudit
