/-
This file is about the receivers of a method call. The walk asks the classes among the types of the
object in turn, and the first of them that has the method decides: if its method never returns, the
call leaves the block. What the other receivers do is not asked. So the call leaves the block rightly
if the receivers agree, and wrongly if one of them returns, or is no object at all, while the first
class does not return.
-/

import PhpAudit.Flow.Body
import PhpAudit.Proofs.Hierarchy.Members

namespace PhpAudit

open Hierarchy

/-! ### Methods that return -/

/-- No class or trait declares a method of this name that never returns. -/
def methodsReturn (index : Index) (method : String) : Bool :=
  !index.complete ||
    (declarers index).all fun info => !(info.method? method).any (·.neverReturns)

theorem neverReturns_of_findMethod? {index : Index} {name method : String} {found : FoundMethod}
    (complete : index.complete = true) (returns : methodsReturn index method = true)
    (known : findMethod? index name method = some found) : found.info.neverReturns = false := by
  obtain ⟨other, info, -, indexed, declares⟩ := offered_of_findMethod? known
  simp only [methodsReturn, complete, Bool.not_true, Bool.false_or, List.all_eq_true] at returns
  have own := returns info (classOrTrait?_some indexed).2
  simp only [declares] at own
  simpa using own

/-! ### The receiver that decides -/

/-- The receiver is a class whose method never returns. -/
def endsAt (index : Index) (method receiver : String) : Bool :=
  TypeName.isClass receiver && (findMethod? index receiver method).any (·.info.neverReturns)

/-- The first class among some receivers that has the method. -/
def deciding? (index : Index) (method : String) (receivers : List String) : Option String :=
  (receivers.filter TypeName.isClass).find? fun receiver =>
    (findMethod? index receiver method).isSome

theorem of_deciding? {index : Index} {method receiver : String} {receivers : List String}
    (decides : deciding? index method receivers = some receiver) :
    receiver ∈ receivers ∧ TypeName.isClass receiver = true :=
  List.mem_filter.mp (List.mem_of_find?_eq_some decides)

/-- The method that is looked up is the one of the receiver that decides. -/
theorem Walk.lookupMethodOf?_eq {env : Env} (complete : env.index.complete = true) (walk : Walk)
    (object : Expr) (method : String) :
    walk.lookupMethodOf? env object method =
      (deciding? env.index method (walk.typeOf env object).names).bind
        (findMethod? env.index · method) := by
  simp only [lookupMethodOf?, lookupMethod?, complete, if_true, deciding?]
  induction (walk.typeOf env object).names.filter TypeName.isClass with
  | nil => rfl
  | cons receiver rest inductionHypothesis =>
    rw [List.findSome?_cons, List.find?_cons, inductionHypothesis]
    cases found : findMethod? env.index receiver method with
    | none => rfl
    | some method => exact found.symm

/-- A method is found only once the index is complete. -/
theorem Walk.complete_of_lookupMethodOf? {env : Env} {walk : Walk} {object : Expr}
    {method : String} {found : FoundMethod}
    (known : walk.lookupMethodOf? env object method = some found) : env.index.complete = true := by
  unfold lookupMethodOf? at known
  split at known
  · assumption
  · cases known

/-- If all methods of the name return, so does the one that is looked up. -/
theorem Walk.returns_of_lookupMethodOf? {env : Env} {walk : Walk} {object : Expr}
    {method : String} {found : FoundMethod} (returns : methodsReturn env.index method = true)
    (known : walk.lookupMethodOf? env object method = some found) :
    found.info.neverReturns = false := by
  have complete := Walk.complete_of_lookupMethodOf? known
  rw [Walk.lookupMethodOf?_eq complete] at known
  obtain ⟨receiver, -, known⟩ := Option.bind_eq_some_iff.mp known
  exact neverReturns_of_findMethod? complete returns known

/-! ### Calls that leave the block -/

namespace Flow

/-- The names of the types that the object of a call may have. -/
def receivers (env : Env) (object : Expr) (walk : Walk) : List String :=
  ((walkExpr env object walk.impure).typeOf env object).names

/-- The walk before control enters the method that is called. -/
def passArgs (env : Env) (object : Expr) (method : String) (args : List Arg) (walk : Walk) : Walk :=
  let evaluated := walkExpr env object walk.impure
  walkArgs env (methodParams (evaluated.lookupMethodOf? env object method)) 0 args evaluated

/-- A fresh block is left by a callee that never returns and by no other. -/
theorem exits_leaveByFound_ne {env : Env} (complete : env.index.complete = true)
    {found : Option FoundMethod} {walk : Walk} (fresh : walk.block.exits = .none) :
    (walk.leaveByFound env found).block.exits ≠ .none ↔
      found.any (·.info.neverReturns) = true := by
  cases found with
  | none => simpa [Walk.leaveByFound] using fresh
  | some method =>
    have empty : walk.block.exits.isEmpty = true := by rw [fresh]; rfl
    cases returns : method.info.exits.isEmpty with
    | true => simp [Walk.leaveByFound, Walk.leaveByCallee, FunctionInfo.neverReturns, returns, fresh]
    | false =>
      have left : method.info.exits ≠ .none := fun equal => by
        rw [equal] at returns
        cases returns
      simpa [Walk.leaveByFound, Walk.leaveByCallee, FunctionInfo.neverReturns, returns, complete,
        Walk.leave, Walk.mapBlock, Block.leave, empty] using left

/--
The first class that has the method decides whether a method call leaves the block. Where the
receivers agree, a call that leaves the block has only receivers that are classes and whose method
never returns.
-/
theorem call_leaves_by_first_receiver (env : Env) (complete : env.index.complete = true)
    (object : Expr) (method : String) (args : List Arg) (nullsafe : Bool) (span : Span)
    (walk : Walk) (reached : (passArgs env object method args walk).block.exits = .none) :
    let called := walkKind env span (.methodCall object (some method) args nullsafe) walk
    (called.block.exits ≠ .none ↔
      (deciding? env.index method (receivers env object walk)).any (endsAt env.index method) =
        true) ∧
    ((∀ first ∈ receivers env object walk, ∀ second ∈ receivers env object walk,
        endsAt env.index method first = endsAt env.index method second) →
      called.block.exits ≠ .none →
        ∀ receiver ∈ receivers env object walk, endsAt env.index method receiver = true) := by
  have decided :
      (walkKind env span (.methodCall object (some method) args nullsafe) walk).block.exits ≠
          .none ↔
        (deciding? env.index method (receivers env object walk)).any (endsAt env.index method) =
          true := by
    rw [walkKind, Option.bind_some]
    refine (exits_leaveByFound_ne complete reached).trans ?_
    rw [Walk.lookupMethodOf?_eq complete]
    cases decides : deciding? env.index method (receivers env object walk) with
    | none =>
      unfold receivers at decides
      rw [decides]
      rfl
    | some receiver =>
      have isClass := (of_deciding? decides).2
      unfold receivers at decides
      simp [decides, endsAt, isClass]
  refine ⟨decided, fun agree left receiver possible => ?_⟩
  obtain ⟨first, decides, ends⟩ := (Option.any_eq_true ..).mp (decided.mp left)
  rw [← agree first (of_deciding? decides).1 receiver possible, ends]

/-- The classes `\A`, whose method `m` never returns, `\B`, which extends it, and `\C`, whose `m`
returns. -/
def receiverIndex : Index :=
  let position : Position := ⟨"a.php", 1, 0, 0⟩
  let method (exits : Exits) : FunctionInfo := { name := "m", position, exits }
  let plain (name : String) : ClassInfo := { name, position }
  let symbols := ((FileSymbols.addClass {} ((plain "\\A").addMethod (method .byDie))).addClass
    { plain "\\B" with parent := some "\\A" }).addClass ((plain "\\C").addMethod (method .none))
  { Index.empty.insertFile "a.php" symbols with complete := true }

/-- The walk of a block in which `$a` has one of some types. -/
def typedWalk (types : List String) : Walk :=
  .start (Scope.empty.add "$a" (.ofList (types.map .concrete)) true) { enabled := true }

/-- A call of a method that both receivers have from one class. -/
theorem call_leaves_by_first_receiver_inherited :
    let env : Env := { (default : Env) with index := receiverIndex }
    let object : Expr := ⟨.var "$a", ⟨0, 1⟩⟩
    let walk := typedWalk ["\\A", "\\B"]
    (walkKind env ⟨0, 1⟩ (.methodCall object (some "m") [] false) walk).block.exits ≠ .none ∧
      ∀ receiver ∈ receivers env object walk, endsAt receiverIndex "m" receiver = true := by
  intro env object walk
  have left : (walkKind env ⟨0, 1⟩ (.methodCall object (some "m") [] false) walk).block.exits ≠
      .none := by
    decide
  exact ⟨left, (call_leaves_by_first_receiver env rfl object "m" [] false ⟨0, 1⟩ walk
    (by decide)).2 (by decide) left⟩

/-- A class whose method never returns ends the block for a receiver that returns and for `null`. -/
theorem unaskedReceivers_return :
    (walkKind { (default : Env) with index := receiverIndex } ⟨0, 1⟩
        (.methodCall ⟨.var "$a", ⟨0, 1⟩⟩ (some "m") [] true)
        (typedWalk ["\\A", "\\C", "null"])).block.exits ≠ .none ∧
      ∀ receiver ∈ ["\\C", "null"],
        receiver ∈ receivers { (default : Env) with index := receiverIndex } ⟨.var "$a", ⟨0, 1⟩⟩
          (typedWalk ["\\A", "\\C", "null"]) ∧
        endsAt receiverIndex "m" receiver = false := by
  decide

end Flow

end PhpAudit
