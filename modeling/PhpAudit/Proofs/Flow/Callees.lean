/-
This file compares the two lookups of a called function. The walk over a body looks for the qualified
name and, if the name is written plainly inside a namespace, for the global name after it. The type of
the call holds the qualified name alone, and when it is resolved, the global name is made anew from the
last part of it.

For plain names both come to the same function. Names that are qualified or imported have no second
name for the walk, but where their function is missing, the resolution of types goes on to a global
function that the call cannot mean.
-/

import PhpAudit.Flow.Body
import PhpAudit.Proofs.Resolution.Declared

namespace PhpAudit

/-! ### Names of functions -/

namespace Naming

variable {naming : Naming} {name : String}

/-- The name is neither qualified nor imported. -/
def isPlain (naming : Naming) (name : String) : Bool :=
  !isQualified name && naming.functions[Text.lower name]?.isNone

theorem functionName_eq :
    naming.functionName name =
      if Text.startsWith name "\\" then
        ⟨name, none⟩
      else if isQualified name then
        ⟨naming.className name, none⟩
      else
        match naming.functions[Text.lower name]? with
        | some imported => ⟨imported, none⟩
        | none =>
          if naming.space.isEmpty then ⟨"\\" ++ name, none⟩
          else ⟨naming.declared name, some ("\\" ++ name)⟩ :=
  rfl

theorem backslash_notMem (unqualified : isQualified name = false) : '\\' ∉ name.toList :=
  fun listed => Bool.false_ne_true (unqualified.symm.trans (List.contains_iff_mem.mpr listed))

theorem isQualified_of_rooted (rooted : Text.startsWith name "\\" = true) :
    isQualified name = true := by
  obtain ⟨rest, same⟩ := List.isPrefixOf_iff_prefix.mp rooted
  rw [isQualified, ← same]
  exact List.contains_iff_mem.mpr List.mem_cons_self

theorem functionName_of_isPlain (plain : naming.isPlain name = true) :
    naming.functionName name =
      if naming.space.isEmpty then ⟨"\\" ++ name, none⟩
      else ⟨naming.declared name, some ("\\" ++ name)⟩ := by
  obtain ⟨unqualified, notImported⟩ := Bool.and_eq_true_iff.mp plain
  rw [Bool.not_eq_true'] at unqualified
  have unrooted : ¬ Text.startsWith name "\\" = true := fun rooted =>
    Bool.false_ne_true (unqualified.symm.trans (isQualified_of_rooted rooted))
  rw [functionName_eq, if_neg unrooted, unqualified, if_neg Bool.false_ne_true,
    Option.isNone_iff_eq_none.mp notImported]

/-- Only plain names fall back to the global namespace. -/
theorem fallback_of_not_isPlain (other : naming.isPlain name = false) :
    (naming.functionName name).fallback = none := by
  rw [functionName_eq]
  split
  · rfl
  split
  · rfl
  next unqualified =>
    cases imported : naming.functions[Text.lower name]? with
    | some found => rfl
    | none =>
      rw [isPlain, Bool.eq_false_of_not_eq_true unqualified, imported] at other
      cases other

end Naming

namespace Resolution

variable {space name : String}

theorem rootFallback?_global (unqualified : Naming.isQualified name = false) :
    rootFallback? ("\\" ++ name) = none := by
  have single : ("\\" ++ name).toList.count '\\' = 1 := by
    rw [String.toList_append, List.count_append,
      List.count_eq_zero.mpr (Naming.backslash_notMem unqualified)]
    rfl
  rw [rootFallback?, single, if_neg (Nat.lt_irrefl 1)]

/-- The last part of a name in a namespace is the name as it was written. -/
theorem rootFallback?_declared (rooted : Text.startsWith space "\\" = true)
    (unqualified : Naming.isQualified name = false) :
    rootFallback? (space ++ "\\" ++ name) = some ("\\" ++ name) := by
  have written : (space ++ "\\" ++ name).toList = space.toList ++ '\\' :: name.toList := by
    rw [String.toList_append, String.toList_append, List.append_assoc]
    rfl
  have several : 1 < (space ++ "\\" ++ name).toList.count '\\' := by
    obtain ⟨rest, same⟩ := List.isPrefixOf_iff_prefix.mp rooted
    rw [written, ← same]
    show 1 < (('\\' :: rest) ++ '\\' :: name.toList).count '\\'
    rw [List.count_append, List.count_cons_self, List.count_cons_self]
    omega
  have last : (space ++ "\\" ++ name).toList.reverse.takeWhile (· != '\\') =
      name.toList.reverse := by
    have allOther (char : Char) (listed : char ∈ name.toList.reverse) : (char != '\\') = true := by
      rw [bne_iff_ne]
      rintro rfl
      exact Naming.backslash_notMem unqualified (List.mem_reverse.mp listed)
    rw [written, List.reverse_append, List.reverse_cons, List.append_assoc,
      List.takeWhile_append_of_pos allOther]
    exact List.append_nil _
  rw [rootFallback?, if_pos several, last, List.reverse_reverse, String.ofList_toList]

end Resolution

/-! ### The function that is called -/

open Resolution

/-- The call is not written plainly, the function that it names is missing, and the last part of the
name is that of a global function. -/
def strays (index : Index) (naming : Naming) (name : String) : Bool :=
  let called := (naming.functionName name).name
  !naming.isPlain name && (index.function? called).isNone &&
    ((rootFallback? called).bind index.function?).isSome

variable {name : String}

/-- For plain names the global name is made anew as it was. -/
theorem rootFallback?_functionName {naming : Naming}
    (rooted : naming.space = "" ∨ Text.startsWith naming.space "\\" = true)
    (plain : naming.isPlain name = true) :
    rootFallback? (naming.functionName name).name = (naming.functionName name).fallback := by
  have unqualified : Naming.isQualified name = false :=
    (Bool.not_eq_true' _).mp (Bool.and_eq_true_iff.mp plain).1
  rw [Naming.functionName_of_isPlain plain]
  split
  · exact rootFallback?_global unqualified
  · next inside =>
    refine rootFallback?_declared (rooted.resolve_left fun same => inside ?_) unqualified
    rw [same]
    rfl

theorem functionOrGlobal?_eq_callee?_iff {env : Env}
    (rooted : env.naming.space = "" ∨ Text.startsWith env.naming.space "\\" = true) :
    functionOrGlobal? env.index (env.naming.functionName name).name = Flow.callee? env name ↔
      strays env.index env.naming name = false := by
  unfold functionOrGlobal? Flow.callee? strays
  dsimp only
  cases plain : env.naming.isPlain name with
  | true => simp [rootFallback?_functionName rooted plain]
  | false =>
    rw [Naming.fallback_of_not_isPlain plain]
    cases env.index.function? (env.naming.functionName name).name <;> simp

/--
A call has the types of the function that is found for its name when types are resolved. This is the
function that the walk looks up, unless the call strays.
-/
theorem call_means_callee (env : Env) (scope : Scope) (name : String) (args : List Arg)
    (span : Span) (rooted : env.naming.space = "" ∨ Text.startsWith env.naming.space "\\" = true) :
    let called := (env.naming.functionName name).name
    Typing.localType scope env.naming ⟨.call name args, span⟩ = .singleton (.functionCall called) ∧
      (∀ owner, ResolvesTo env.index owner (.functionCall called) owner
        (returned (functionOrGlobal? env.index called))) ∧
      (functionOrGlobal? env.index called = Flow.callee? env name ↔
        strays env.index env.naming name = false) := by
  refine ⟨rfl, fun owner => ?_, functionOrGlobal?_eq_callee?_iff rooted⟩
  exact (standsFor_functionCall _).resolvesTo rfl fun _ => rfl

/-- Code in the namespace `\App`, where the only function is the global `\strlen`. -/
def lengthEnv : Env :=
  { (default : Env) with
    index := Index.empty.insertFile "sample"
      (FileSymbols.addFunction {} (returning "\\strlen" [.concrete "int"]))
    naming := .ofNamespace (some "App") }

theorem call_means_callee_strlen :
    (Flow.callee? lengthEnv "strlen").map (·.name) = some "\\strlen" ∧
      functionOrGlobal? lengthEnv.index "\\App\\strlen" = Flow.callee? lengthEnv "strlen" ∧
      (resolve lengthEnv.index "" (Typing.localType .empty lengthEnv.naming
        ⟨.call "strlen" [], ⟨0, 1⟩⟩)).names = ["int"] := by
  obtain ⟨typed, resolves, same⟩ :=
    call_means_callee lengthEnv .empty "strlen" [] ⟨0, 1⟩ (.inr (by decide))
  have means : functionOrGlobal? lengthEnv.index "\\App\\strlen" = Flow.callee? lengthEnv "strlen" :=
    same.mpr (by decide)
  refine ⟨by decide, means, ?_⟩
  rw [typed, (resolves "").guarded]
  decide

/-- The fully qualified `\App\strlen` is no function for the walk, and the global one for types. -/
theorem qualified_call_strays :
    ¬ ∀ (env : Env) (name : String),
      functionOrGlobal? env.index (env.naming.functionName name).name = Flow.callee? env name := by
  intro agree
  have claimed := congrArg Option.isSome (agree lengthEnv "\\App\\strlen")
  revert claimed
  decide

end PhpAudit
