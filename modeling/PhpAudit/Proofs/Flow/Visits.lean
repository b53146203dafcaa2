/-
This file lists the variables that a walk visits, in the order in which it visits them, and says how
it uses each of them there. The order of a walk is that of the text, which is not always the order in
which the code runs: a walk visits the operands of an assignment's target after the value, and a loop
once. Visits that the runs of the code may come to in another order are marked as such.
-/

import Mathlib.Data.List.Dedup
import PhpAudit.Proofs.Execution.Semantics

namespace PhpAudit

/-! ### Visits -/

/-- What a walk does with a variable that it visits. -/
inductive Use where
  /-- Gives it a value that should be read, and notes the range at which it would be reported -/
  | assigned (noted : Option Span)
  /-- Reads it, or gives it a value that need not be read -/
  | used
  /-- Asks whether it is set -/
  | probed
  /-- Takes it into a closure -/
  | captured (byRef : Bool)
  | unset
  /-- Learns something about it from the outcome of a test -/
  | tested
  /-- Uses a variable of that name in the body of a nested function -/
  | nested
deriving DecidableEq

/-- Where a visit stands with respect to the loops of the code. -/
inductive Turn where
  | once
  /-- In a test, step or target of a loop, which is walked like code that runs once -/
  | head
  /-- Where the walk knows that it is inside a loop -/
  | body
deriving DecidableEq

/-- A variable that a walk visits. -/
structure Visit where
  name : String
  span : Span
  use : Use
  /-- The code runs before some code that is walked earlier -/
  early : Bool := false
  turn : Turn := .once
  /-- Variables that visits before it in the same expression gave a value -/
  known : List String := []
deriving DecidableEq

namespace Visit

def hasten (visit : Visit) : Visit :=
  { visit with early := true }

def inHead (visit : Visit) : Visit :=
  { visit with turn := .head }

def inBody (visit : Visit) : Visit :=
  { visit with turn := .body }

/-- The visit as one in a nested function. -/
def inside (visit : Visit) : Visit :=
  { visit with use := .nested }

/-- The writes noted before count as read. -/
def clears (visit : Visit) : Bool :=
  match visit.use with
  | .used | .probed | .captured _ | .unset => true
  | .assigned _ | .tested | .nested => false

/-- The variable has a value afterwards, as far as the walk knows. -/
def gains (visit : Visit) : Bool :=
  match visit.use with
  | .used | .assigned _ => true
  | .probed | .captured _ | .unset | .tested | .nested => false

/-- What is known about the variable may be dropped. -/
def forgets (visit : Visit) : Bool :=
  match visit.use with
  | .unset | .tested => true
  | .used | .assigned _ | .probed | .captured _ | .nested => false

/-- The visit as one that comes after others. -/
def after (earlier : List Visit) (visit : Visit) : Visit :=
  { visit with known := (earlier.filter gains).map name ++ visit.known }

/-- The runs of the code may come to a later visit before this one, or to an earlier one after it. -/
def loose (visit : Visit) : Bool :=
  visit.early || visit.turn != .once

end Visit

/-- How an assignment uses a plain variable at `span`. -/
def Flow.AssignMode.use (span : Span) : AssignMode → Use
  | .plain => .assigned (some span)
  | .compound _ | .reference => .used
  | .iteration outer => .assigned (some outer)

/-- How an assignment expression gives its target a value. -/
def assignMode (target : Expr) (op : AssignOp) (byRef : Bool) : Flow.AssignMode :=
  if byRef then .reference
  else match op with
    | .assign => .plain
    | .concat | .coalesce | .arithmetic | .bitwise => .compound target.span

/-! ### Targets -/

/-- Whether an array literal is stored into, which evaluates parts of it once more. -/
def Expr.isLiteral : Expr → Bool
  | ⟨.paren inner, _⟩ => inner.isLiteral
  | ⟨.element base _, _⟩ => base.isLiteral
  | ⟨.array _, _⟩ | ⟨.list _, _⟩ => true
  | _ => false

/-- Whether an argument is an element of an array literal. -/
def Expr.isLiteralElement : Expr → Bool
  | ⟨.paren inner, _⟩ => inner.isLiteralElement
  | ⟨.element base _, _⟩ => base.isLiteral
  | _ => false

namespace Visits

/-- The visits of code that is walked after other code of the same expression. -/
def chain (first second : List Visit) : List Visit :=
  first ++ second.map (Visit.after first)

/-- Visits that give no variable a value tell the visits after them nothing. -/
theorem chain_of_idle {first : List Visit} (idle : ∀ visit ∈ first, visit.gains = false)
    (second : List Visit) : chain first second = first ++ second := by
  have none : first.filter Visit.gains = [] :=
    List.filter_eq_nil_iff.mpr fun visit member => by simp [idle visit member]
  have same : Visit.after first = id := by
    funext visit
    unfold Visit.after
    rw [none]
    rfl
  rw [chain, same, List.map_id]

theorem after_append (first second : List Visit) (visit : Visit) :
    visit.after (first ++ second.map (Visit.after first)) = (visit.after second).after first := by
  have same : (second.map (Visit.after first)).filter Visit.gains =
      (second.filter Visit.gains).map (Visit.after first) := List.filter_map ..
  simp only [Visit.after, List.filter_append, same, List.map_append, List.map_map,
    List.append_assoc]
  rfl

theorem chain_assoc (first second third : List Visit) :
    chain (chain first second) third = chain first (chain second third) := by
  have shifted : third.map (Visit.after (first ++ second.map (Visit.after first))) =
      (third.map (Visit.after second)).map (Visit.after first) := by
    rw [List.map_map]
    exact List.map_congr_left fun visit _ => after_append first second visit
  rw [chain, chain, chain, chain, shifted, List.map_append, List.append_assoc]

/-- Variables that are read together at one range. -/
def ofReads (span : Span) (names : List String) : List Visit :=
  names.dedup.map fun name => { name, span, use := .used }

def hastenIf (early : Bool) (visits : List Visit) : List Visit :=
  if early then visits.map Visit.hasten else visits

def ofCapture (captured : Capture) : Visit where
  name := captured.name
  span := captured.span
  use := .captured captured.byRef

@[simp]
theorem hastenIf_false (visits : List Visit) : hastenIf false visits = visits := rfl

theorem hastenIf_chain (early : Bool) (first second : List Visit) :
    hastenIf early (chain first second) = chain (hastenIf early first) (hastenIf early second) := by
  cases early with
  | false => rfl
  | true =>
    have same : (first.map Visit.hasten).filter Visit.gains =
        (first.filter Visit.gains).map Visit.hasten := List.filter_map ..
    have after : Visit.hasten ∘ Visit.after first =
        Visit.after (first.map Visit.hasten) ∘ Visit.hasten := by
      funext visit
      simp only [Function.comp_apply, Visit.after, Visit.hasten, same, List.map_map]
      rfl
    simp only [hastenIf, if_true, chain, List.map_append, List.map_map, after]

/-- The variable that a test tells something about. -/
def ofTested (span : Span) (name : Option String) : List Visit :=
  name.toList.map fun name => { name, span, use := .tested }

/-- The variables that `!empty(...)` tells to be set. -/
def ofNotEmpty (span : Span) (negated : Bool) (operand : Expr) : List Visit :=
  match operand.unparen.kind with
  | .isEmpty inner => if negated then [] else ofTested span inner.rootName?
  | _ => []

/-- The variables that `isset(...)` tells to be set. -/
def ofIsset (span : Span) (negated : Bool) (values : List Expr) : List Visit :=
  if negated then [] else values.flatMap fun value => ofTested span value.rootName?

end Visits

open Visits

/-- Whether a call by name is one of `compact`, which reads the variables that it is told. -/
def Naming.isCompact (naming : Naming) (name : String) : Bool :=
  let candidates := naming.functionName name
  Text.lower (candidates.fallback.getD candidates.name) == "\\compact"

/-! ### The visits of a walk -/

mutual

/-- The visits of the walk over an expression whose value is read. -/
def visitsExpr (naming : Naming) : Expr → List Visit
  | ⟨kind, span⟩ => visitsKind naming span kind

def visitsKind (naming : Naming) (span : Span) : ExprKind → List Visit
  | .var name => [{ name, span, use := .used }]
  | .dynamicVar reads | .interpolated reads | .unmodeled reads | .print reads | .exit _ reads =>
    ofReads span reads
  | .integer | .float | .string _ | .boolean _ | .null | .magic _ | .constant _ => []
  | .paren inner | .clone inner | .property inner _ _ | .includeFile inner | .yieldFrom inner
  | .throw inner => visitsExpr naming inner
  | .unary op operand =>
    hastenIf (Execution.steps op && operand.isLiteral) (visitsExpr naming operand)
  | .array items | .list items => visitsItems naming items
  | .element base index => chain (visitsExpr naming base) (visitsOptional naming index)
  | .assign target value op byRef =>
    chain (visitsExpr naming value) (hastenIf (!byRef && op == .coalesce && target.isLiteral)
      (visitsAssign naming (assignMode target op byRef) target))
  | .binary op left right =>
    match op with
    | .coalesce => chain (visitsProbe naming left) (visitsExpr naming right)
    | _ => chain (visitsExpr naming left) (visitsExpr naming right)
  | .instanceOf subject ref => chain (visitsExpr naming subject) (visitsRef naming ref)
  | .ternary test none no => chain (visitsExpr naming test) (visitsExpr naming no)
  | .ternary test (some yes) no =>
    chain (visitsTest naming false test) (visitsExpr naming yes ++ visitsExpr naming no)
  | .call name args =>
    if naming.isCompact name then visitsCompactArgs naming args else visitsArgs naming args
  | .callValue function args => chain (visitsExpr naming function) (visitsArgs naming args)
  | .methodCall object _ args _ => chain (visitsExpr naming object) (visitsArgs naming args)
  | .staticCall ref _ args | .new ref args => chain (visitsRef naming ref) (visitsArgs naming args)
  | .staticProperty ref _ | .classConstant ref _ => visitsRef naming ref
  | .isset values => visitsProbes naming values
  | .isEmpty value => visitsProbe naming value
  | .closure _ captures _ _ body =>
    chain (captures.map ofCapture) ((visitsStmts naming body).map Visit.inside)
  | .arrow _ _ _ body => (visitsExpr naming body).map Visit.inside
  | .matchOn subject arms => chain (visitsExpr naming subject) (visitsArms naming false arms)
  | .yield key value => chain (visitsOptional naming key) (visitsOptional naming value)

def visitsExprs (naming : Naming) : List Expr → List Visit
  | [] => []
  | value :: rest => chain (visitsExpr naming value) (visitsExprs naming rest)

def visitsOptional (naming : Naming) : Option Expr → List Visit
  | none => []
  | some value => visitsExpr naming value

def visitsItems (naming : Naming) : List Item → List Visit
  | [] => []
  | .skip :: rest => visitsItems naming rest
  | .entry key value _ _ :: rest =>
    chain (chain (visitsOptional naming key) (visitsExpr naming value)) (visitsItems naming rest)

def visitsRef (naming : Naming) : ClassRef → List Visit
  | .dynamic value => visitsExpr naming value
  | .named _ | .self | .static | .parent => []

/-- After the default arm, conditions are evaluated before code that is walked earlier. -/
def visitsArms (naming : Naming) (late : Bool) : List MatchArm → List Visit
  | [] => []
  | ⟨conditions, body⟩ :: rest =>
    chain (chain (hastenIf late (visitsExprs naming conditions)) (visitsExpr naming body))
      (visitsArms naming (late || conditions.isEmpty) rest)

def visitsArgs (naming : Naming) : List Arg → List Visit
  | [] => []
  | ⟨value, _, _⟩ :: rest =>
    chain (hastenIf value.isLiteralElement (visitsExpr naming value)) (visitsArgs naming rest)

def visitsProbe (naming : Naming) : Expr → List Visit
  | ⟨kind, span⟩ =>
    let read := visitsKind naming span kind
    match kind with
    | .paren inner => visitsProbe naming inner
    | .var name => [{ name, span, use := .probed }]
    | .element base index => chain (visitsProbe naming base) (visitsOptional naming index)
    | .property object _ _ => visitsProbe naming object
    | _ => read

def visitsProbes (naming : Naming) : List Expr → List Visit
  | [] => []
  | value :: rest => chain (visitsProbe naming value) (visitsProbes naming rest)

/-- The visits of the walk over the target of an assignment. -/
def visitsAssign (naming : Naming) (mode : Flow.AssignMode) : Expr → List Visit
  | ⟨kind, span⟩ =>
    let read := visitsKind naming span kind
    match kind with
    | .var name => [{ name, span, use := mode.use span }]
    | .paren inner => visitsAssign naming mode inner
    | .element base index =>
      chain (visitsContainer naming true base) (hastenIf true (visitsOptional naming index))
    | .list items | .array items => visitsPattern naming items
    | .property object _ _ => hastenIf true (visitsExpr naming object)
    | .staticProperty ref _ => hastenIf true (visitsRef naming ref)
    | _ => hastenIf true read

/--
The visits of the walk over the container of an element that is stored into. Where the element is
the target of an assignment, the operands in the container are evaluated before the value.
-/
def visitsContainer (naming : Naming) (early : Bool) : Expr → List Visit
  | ⟨kind, span⟩ =>
    let read := visitsKind naming span kind
    match kind with
    | .paren inner => visitsContainer naming early inner
    | .var name => [{ name, span, use := .used }]
    | .element base index =>
      chain (visitsContainer naming early base) (hastenIf early (visitsOptional naming index))
    | _ => hastenIf early read

def visitsPattern (naming : Naming) : List Item → List Visit
  | [] => []
  | .skip :: rest => visitsPattern naming rest
  | .entry key value _ _ :: rest =>
    chain (chain (visitsOptional naming key) (visitsAssign naming .plain value))
      (visitsPattern naming rest)

def visitsCompactArgs (naming : Naming) : List Arg → List Visit
  | [] => []
  | ⟨value, _, _⟩ :: rest =>
    chain (visitsCompact naming value.span value) (visitsCompactArgs naming rest)

def visitsCompact (naming : Naming) (outer : Span) : Expr → List Visit
  | ⟨kind, span⟩ =>
    let read := visitsKind naming span kind
    match kind with
    | .paren inner => visitsCompact naming outer inner
    | .string (some name) =>
      [outer, span].dedup.map fun span => { name := "$" ++ name, span, use := .used }
    | .array items => visitsCompactItems naming items
    | _ => read

def visitsCompactItems (naming : Naming) : List Item → List Visit
  | [] => []
  | .skip :: rest => visitsCompactItems naming rest
  | .entry _ value _ _ :: rest =>
    chain (visitsCompact naming value.span value) (visitsCompactItems naming rest)

/-- The visits of the walk over a condition. -/
def visitsTest (naming : Naming) (negated : Bool) : Expr → List Visit
  | ⟨kind, span⟩ =>
    let read := visitsKind naming span kind
    match kind with
    | .paren inner => visitsTest naming negated inner
    | .binary .and left right | .binary .or left right =>
      chain (visitsTest naming negated left) (visitsTest naming negated right)
    | .unary .not operand =>
      chain (ofNotEmpty span negated operand) (visitsTest naming (!negated) operand)
    | .isset values => chain (ofIsset span negated values) (visitsProbes naming values)
    | .instanceOf subject ref =>
      chain (chain (visitsExpr naming subject) (visitsRef naming ref))
        (ofTested span subject.variableName?)
    | _ => read

/-- The visits of the walk over statements. -/
def visitsStmts (naming : Naming) : List Stmt → List Visit
  | [] => []
  | stmt :: rest => visitsStmt naming stmt ++ visitsStmts naming rest

def visitsStmt (naming : Naming) : Stmt → List Visit
  | ⟨kind, span⟩ => visitsStmtKind naming span kind

def visitsStmtKind (naming : Naming) (span : Span) : StmtKind → List Visit
  | .expr value => visitsExpr naming value
  | .echo values => visitsExprs naming values
  | .returns value => visitsOptional naming value
  | .block body => visitsStmts naming body
  | .branch test body _ rest =>
    (visitsTest naming false test ++ visitsStmts naming body) ++ visitsOtherwise naming rest
  | .whileLoop test body =>
    (visitsExpr naming test).map Visit.inHead ++ (visitsStmts naming body).map Visit.inBody
  | .doWhile body test => (visitsStmts naming body ++ visitsExpr naming test).map Visit.inBody
  | .forLoop init test step body =>
    (visitsExprs naming init ++ (visitsExprs naming test ++ visitsExprs naming step).map
      Visit.inHead) ++ (visitsStmts naming body).map Visit.inBody
  | .foreach subject key value _ body =>
    visitsExpr naming subject ++
      ((visitsAssign naming (.iteration value.span) value ++ visitsKey naming key).map Visit.inHead ++
        (visitsStmts naming body).map Visit.inBody)
  | .switch subject cases => visitsExpr naming subject ++ visitsCases naming false cases
  | .tryCatch body catches final _ =>
    (visitsStmts naming body ++ visitsCatches naming catches) ++ visitsFinal naming final
  | .global names => names.map fun name => { name, span, use := .used }
  | .static bindings => visitsBindings naming bindings
  | .unset names => names.map fun name => { name, span, use := .unset }
  | .constants items => visitsConstItems naming items
  | .breaks | .continues | .namespaced _ _ | .imports _ | .function _ | .classLike _ | .nop => []

def visitsKey (naming : Naming) : Option Expr → List Visit
  | none => []
  | some key => visitsAssign naming (.iteration key.span) key

def visitsOtherwise (naming : Naming) : Otherwise → List Visit
  | .nothing => []
  | .orElse body => visitsStmts naming body
  | .orIf test body _ rest =>
    (visitsTest naming false test ++ visitsStmts naming body) ++ visitsOtherwise naming rest

/-- After the default case, tests are evaluated before code that is walked earlier. -/
def visitsCases (naming : Naming) (late : Bool) : List Case → List Visit
  | [] => []
  | ⟨test, body, _, _⟩ :: rest =>
    (hastenIf late (visitsOptional naming test) ++ visitsStmts naming body) ++
      visitsCases naming (late || test.isNone) rest

def visitsCatches (naming : Naming) : List Catch → List Visit
  | [] => []
  | ⟨_, name, body, span⟩ :: rest =>
    (name.toList.map (fun name => { name, span, use := .assigned none }) ++
      visitsStmts naming body) ++ visitsCatches naming rest

def visitsFinal (naming : Naming) : Option (List Stmt) → List Visit
  | none => []
  | some last => visitsStmts naming last

def visitsBindings (naming : Naming) : List Binding → List Visit
  | [] => []
  | ⟨name, value, span⟩ :: rest =>
    chain (chain (visitsOptional naming value) [{ name, span, use := .used }])
      (visitsBindings naming rest)

def visitsConstItems (naming : Naming) : List ConstItem → List Visit
  | [] => []
  | ⟨_, value, _⟩ :: rest => chain (visitsExpr naming value) (visitsConstItems naming rest)

end

/-! ### Empty sequences -/

section

variable (naming : Naming)

theorem visitsExprs_nil : visitsExprs naming [] = [] := by
  rw [visitsExprs]

theorem visitsOptional_none : visitsOptional naming none = [] := by
  rw [visitsOptional]

theorem visitsItems_nil : visitsItems naming [] = [] := by
  rw [visitsItems]

theorem visitsArms_nil (late : Bool) : visitsArms naming late [] = [] := by
  rw [visitsArms]

theorem visitsArgs_nil : visitsArgs naming [] = [] := by
  rw [visitsArgs]

theorem visitsProbes_nil : visitsProbes naming [] = [] := by
  rw [visitsProbes]

theorem visitsPattern_nil : visitsPattern naming [] = [] := by
  rw [visitsPattern]

theorem visitsCompactArgs_nil : visitsCompactArgs naming [] = [] := by
  rw [visitsCompactArgs]

theorem visitsCompactItems_nil : visitsCompactItems naming [] = [] := by
  rw [visitsCompactItems]

theorem visitsStmts_nil : visitsStmts naming [] = [] := by
  rw [visitsStmts]

theorem visitsKey_none : visitsKey naming none = [] := by
  rw [visitsKey]

theorem visitsOtherwise_nothing : visitsOtherwise naming .nothing = [] := by
  rw [visitsOtherwise]

theorem visitsCases_nil (late : Bool) : visitsCases naming late [] = [] := by
  rw [visitsCases]

theorem visitsCatches_nil : visitsCatches naming [] = [] := by
  rw [visitsCatches]

theorem visitsFinal_none : visitsFinal naming none = [] := by
  rw [visitsFinal]

theorem visitsBindings_nil : visitsBindings naming [] = [] := by
  rw [visitsBindings]

theorem visitsConstItems_nil : visitsConstItems naming [] = [] := by
  rw [visitsConstItems]

end

/-! ### Parentheses -/

section

variable (naming : Naming) (inner : Expr) (span : Span)

theorem visitsKind_paren : visitsKind naming span (.paren inner) = visitsExpr naming inner := by
  rw [visitsKind]

end

/-! ### Blocks and containers -/

theorem visitsStmtKind_block (naming : Naming) (span : Span) (body : List Stmt) :
    visitsStmtKind naming span (.block body) = visitsStmts naming body := by
  rw [visitsStmtKind]

/-- A container whose operands are evaluated in their turn is visited like any expression. -/
theorem visitsContainer_false (naming : Naming) (base : Expr) :
    visitsContainer naming false base = visitsExpr naming base := by
  obtain ⟨kind, span⟩ := base
  rw [visitsContainer.eq_def, visitsExpr]
  cases kind with
  | paren inner =>
    rw [visitsKind_paren]
    exact visitsContainer_false naming inner
  | var name => rw [visitsKind]
  | element base index =>
    rw [visitsKind]
    dsimp only
    rw [visitsContainer_false naming base, hastenIf_false]
  | _ => exact hastenIf_false _

end PhpAudit
