/-
This file proves that a file declares every function and every class-like type that stands in it
outside functions and classes, and nothing else, each in the naming context of its place.

Where a declaration stands is told by a relation that knows nothing of the analysis: the namespace
block around it, and the imports of that block up to the statement that holds it. The analysis gets
there in two steps. A plan lists the statements of all namespace blocks with their contexts, and a
visitor looks for further declarations inside the control flow of those statements. Both together
find the declarations that stand somewhere, in another order: first those that are statements of a
block by themselves, then those inside control flow.
-/

import PhpAudit.Proofs.Importing
import PhpAudit.Proofs.Reporting
import PhpAudit.Proofs.Syntax.Every
import PhpAudit.Proofs.Syntax.Viewing

namespace PhpAudit

namespace FileWalk

/-! ### Where declarations stand -/

mutual

/-- The functions and class-like types that some statements declare, in any control flow but outside
the bodies of functions and classes. -/
def declarationsIn : List Stmt → List Stmt
  | [] => []
  | stmt :: rest => declaredBy stmt ++ declarationsIn rest

def declaredBy : Stmt → List Stmt
  | ⟨kind, span⟩ =>
    match kind with
    | .function _ | .classLike _ => [⟨kind, span⟩]
    | .block body | .whileLoop _ body | .doWhile body _ | .forLoop _ _ _ body
    | .foreach _ _ _ _ body => declarationsIn body
    | .branch _ body _ rest => declarationsIn body ++ declaredOtherwise rest
    | .switch _ list => declaredInCases list
    | .tryCatch body list final _ =>
      declarationsIn body ++ declaredInCatches list ++ declaredFinally final
    | .expr _ | .echo _ | .returns _ | .breaks | .continues | .global _ | .static _ | .unset _
    | .namespaced _ _ | .imports _ | .constants _ | .nop => []

def declaredOtherwise : Otherwise → List Stmt
  | .nothing => []
  | .orElse body => declarationsIn body
  | .orIf _ body _ rest => declarationsIn body ++ declaredOtherwise rest

def declaredInCases : List Case → List Stmt
  | [] => []
  | ⟨_, body, _, _⟩ :: rest => declarationsIn body ++ declaredInCases rest

def declaredInCatches : List Catch → List Stmt
  | [] => []
  | ⟨_, _, body, _⟩ :: rest => declarationsIn body ++ declaredInCatches rest

def declaredFinally : Option (List Stmt) → List Stmt
  | none => []
  | some body => declarationsIn body

end

/-- A place in a file: the namespace block around it, and what the block imports before it. -/
structure Site where
  space : Option String := none
  imports : List Import := []

/-- The naming context of a place: that of the namespace, with the names that are imported there. -/
structure Site.Names (site : Site) (naming : Naming) : Prop where
  around : naming.around = ((Naming.ofNamespace site.space).space, "", "", "", false)
  imported : ∀ kind key target, (naming.imported kind)[key]? = some target ↔
    Imported site.imports kind key target

/-- The imports of the `use` statements of a list, in order. -/
def importedBy (statements : List Stmt) : List Import :=
  statements.flatMap fun stmt =>
    match stmt.kind with
    | .imports items => items
    | _ => []

/--
A declaration stands at a place of the statements of a block that starts at the place `start`: in
one of these statements, after what the statements before that one import, or inside a namespace
block among them, which starts without imports.
-/
inductive StandsIn : Site → List Stmt → Site → Stmt → Prop
  | here {start : Site} {before after : List Stmt} {top decl : Stmt} (found : decl ∈ declaredBy top) :
    StandsIn start (before ++ top :: after)
      { start with imports := start.imports ++ importedBy before } decl
  | inside {start site : Site} {before after body : List Stmt} {name : Option String} {span : Span}
      {decl : Stmt} (stands : StandsIn { space := name } body site decl) :
    StandsIn start (before ++ ⟨.namespaced name body, span⟩ :: after) site decl

/-- A statement that neither opens a namespace nor imports names; a loop around it does not matter. -/
def keepsContext (_inLoop : Bool) : StmtKind → Bool
  | .namespaced _ _ | .imports _ => false
  | _ => true

mutual

/-- Namespaces and imports stand only at the top level or directly in a namespace. -/
def wellPlaced : List Stmt → Bool
  | [] => true
  | stmt :: rest => wellPlacedStmt stmt && wellPlaced rest

def wellPlacedStmt : Stmt → Bool
  | ⟨kind, _⟩ =>
    match kind with
    | .namespaced _ body => wellPlaced body
    | .imports _ => true
    | _ => everyPart (fun _ => true) keepsContext false kind

end

/-! ### Declarations inside control flow -/

section

variable (naming : Naming)

/-- At an expression only a constant can be noted. -/
theorem declarations_onExpr (expr : Expr) (nested : Nested) :
    ((nestedVisitor naming).onExpr expr nested).1.declarations = nested.declarations := by
  simp only [nestedVisitor]
  split <;> rfl

theorem declarations_expr (value : Expr) (nested : Nested) :
    ((nestedVisitor naming).expr value nested).declarations = nested.declarations :=
  Visitor.view_expr (declarations_onExpr naming) rfl value nested

theorem declarations_exprs (values : List Expr) (nested : Nested) :
    ((nestedVisitor naming).exprs values nested).declarations = nested.declarations :=
  Visitor.view_exprs (declarations_onExpr naming) rfl values nested

theorem declarations_optional (value : Option Expr) (nested : Nested) :
    ((nestedVisitor naming).optional value nested).declarations = nested.declarations :=
  Visitor.view_optional (declarations_onExpr naming) rfl value nested

/-- Declarations in one naming context. -/
def placedIn (decls : List Stmt) : List Placed :=
  decls.map (naming, ·)

theorem placedIn_append (first second : List Stmt) :
    placedIn naming (first ++ second) = placedIn naming first ++ placedIn naming second :=
  List.map_append

/-- A visit adds some declarations to those that were found before. -/
def Finds (before after : Nested) (decls : List Stmt) : Prop :=
  after.declarations = before.declarations ++ placedIn naming decls

namespace Finds

variable {naming} {before between after : Nested} {first second : List Stmt}

theorem nothing (same : after.declarations = before.declarations) : Finds naming before after [] :=
  same.trans (List.append_nil _).symm

theorem append (left : Finds naming before between first) (right : Finds naming between after second) :
    Finds naming before after (first ++ second) := by
  unfold Finds at left right ⊢
  rw [right, left, placedIn_append, List.append_assoc]

/-- Before a visit others may be made that find nothing. -/
theorem from_eq (finds : Finds naming between after first)
    (same : between.declarations = before.declarations) : Finds naming before after first :=
  finds.trans (congrArg (· ++ placedIn naming first) same)

/-- After a visit others may be made that find nothing. -/
theorem to_eq (finds : Finds naming before between first)
    (same : after.declarations = between.declarations) : Finds naming before after first :=
  same.trans finds

end Finds

mutual

/-- The visitor finds what the statements declare, in order. -/
theorem finds_stmts (inLoop : Bool) (body : List Stmt) (nested : Nested)
    (plain : everyStmt (fun _ => true) keepsContext inLoop body = true) :
    Finds naming nested ((nestedVisitor naming).stmts body nested) (declarationsIn body) := by
  cases body with
  | nil => exact .nothing rfl
  | cons stmt rest =>
    obtain ⟨kind, span⟩ := stmt
    simp only [everyStmt, Bool.and_eq_true] at plain
    exact (finds_stmt inLoop kind span nested plain.1.1 plain.1.2).append
      (finds_stmts inLoop rest _ plain.2)

theorem finds_stmt (inLoop : Bool) (kind : StmtKind) (span : Span) (nested : Nested)
    (own : keepsContext inLoop kind = true)
    (below : everyPart (fun _ => true) keepsContext inLoop kind = true) :
    Finds naming nested ((nestedVisitor naming).stmt ⟨kind, span⟩ nested)
      (declaredBy ⟨kind, span⟩) := by
  cases kind <;> simp only [everyPart, Bool.and_eq_true, true_and, and_true] at below
  case function | classLike => rfl
  case namespaced | imports => cases own
  -- any other statement is passed, and what is below it is visited
  all_goals show Finds naming nested ((nestedVisitor naming).parts _ nested) _
  case expr value => exact .nothing (declarations_expr naming value nested)
  case echo values => exact .nothing (declarations_exprs naming values nested)
  case returns value => exact .nothing (declarations_optional naming value nested)
  case block body => exact finds_stmts inLoop body nested below
  case branch test body _ rest =>
    exact ((finds_stmts inLoop body _ below.1).append (finds_otherwise inLoop rest _ below.2)).from_eq
      (declarations_expr naming test nested)
  case whileLoop test body =>
    exact (finds_stmts true body _ below).from_eq (declarations_expr naming test nested)
  case doWhile body test =>
    exact (finds_stmts true body nested below).to_eq (declarations_expr naming test _)
  case forLoop init test step body =>
    exact (((finds_stmts true body _ below.2).from_eq (declarations_exprs naming step _)).from_eq
      (declarations_exprs naming test _)).from_eq (declarations_exprs naming init nested)
  case «foreach» subject key target _ body =>
    exact (((finds_stmts true body _ below.2).from_eq (declarations_expr naming target _)).from_eq
      (declarations_optional naming key _)).from_eq (declarations_expr naming subject nested)
  case switch subject list =>
    exact (finds_cases list _ below).from_eq (declarations_expr naming subject nested)
  case tryCatch body list final _ =>
    exact ((finds_stmts inLoop body nested below.1.1).append
      (finds_catches inLoop list _ below.1.2)).append (finds_final inLoop final _ below.2)
  case static list =>
    exact .nothing (Visitor.view_bindings (declarations_onExpr naming) rfl list nested)
  case constants list =>
    exact .nothing (Visitor.view_constItems (declarations_onExpr naming) rfl list nested)
  case breaks | continues | global | unset | nop => exact .nothing rfl

theorem finds_otherwise (inLoop : Bool) (rest : Otherwise) (nested : Nested)
    (plain : everyOtherwise (fun _ => true) keepsContext inLoop rest = true) :
    Finds naming nested ((nestedVisitor naming).otherwise rest nested) (declaredOtherwise rest) := by
  cases rest with
  | nothing => exact .nothing rfl
  | orElse body => exact finds_stmts inLoop body nested plain
  | orIf test body _ rest =>
    simp only [everyOtherwise, Bool.and_eq_true, true_and] at plain
    exact ((finds_stmts inLoop body _ plain.1).append (finds_otherwise inLoop rest _ plain.2)).from_eq
      (declarations_expr naming test nested)

theorem finds_cases (list : List Case) (nested : Nested)
    (plain : everyCase (fun _ => true) keepsContext list = true) :
    Finds naming nested ((nestedVisitor naming).cases list nested) (declaredInCases list) := by
  cases list with
  | nil => exact .nothing rfl
  | cons case rest =>
    obtain ⟨test, body, _, _⟩ := case
    simp only [everyCase, Bool.and_eq_true] at plain
    exact ((finds_stmts true body _ plain.1.2).append (finds_cases rest _ plain.2)).from_eq
      (declarations_optional naming test nested)

theorem finds_catches (inLoop : Bool) (list : List Catch) (nested : Nested)
    (plain : everyCatch (fun _ => true) keepsContext inLoop list = true) :
    Finds naming nested ((nestedVisitor naming).catches list nested) (declaredInCatches list) := by
  cases list with
  | nil => exact .nothing rfl
  | cons clause rest =>
    obtain ⟨_, _, body, _⟩ := clause
    simp only [everyCatch, Bool.and_eq_true] at plain
    exact (finds_stmts inLoop body _ plain.1).append (finds_catches inLoop rest _ plain.2)

theorem finds_final (inLoop : Bool) (final : Option (List Stmt)) (nested : Nested)
    (plain : everyFinal (fun _ => true) keepsContext inLoop final = true) :
    Finds naming nested ((nestedVisitor naming).optionalBody final nested)
      (declaredFinally final) := by
  cases final with
  | none => exact .nothing rfl
  | some body => exact finds_stmts inLoop body nested plain

end

end

/-- What a plan declares, the declarations inside control flow at the statement that holds them. -/
def declaredIn (placed : List Placed) : List Placed :=
  placed.flatMap fun (naming, stmt) => placedIn naming (declaredBy stmt)

/-! ### The plan of a file -/

/-- The context with which the plan runs the statements of a place. -/
def Site.naming (site : Site) : Naming :=
  site.imports.foldl addImport (.ofNamespace site.space)

/-- The place after a statement of a block. -/
def Site.after (site : Site) (stmt : Stmt) : Site :=
  { site with imports := site.imports ++ importedBy [stmt] }

theorem naming_after (site : Site) (stmt : Stmt) :
    (site.after stmt).naming = (importedBy [stmt]).foldl addImport site.naming :=
  List.foldl_append

theorem after_importedBy (start : Site) (stmt : Stmt) (before : List Stmt) :
    { start with imports := start.imports ++ importedBy (stmt :: before) } =
      { start.after stmt with imports := (start.after stmt).imports ++ importedBy before } := by
  have split : importedBy (stmt :: before) = importedBy [stmt] ++ importedBy before := by
    simp only [importedBy, List.flatMap_cons, List.flatMap_nil, List.append_nil]
  rw [split, Site.after, List.append_assoc]

/-- Nothing stands in a block without statements. -/
theorem not_standsIn_nil {start site : Site} {decl : Stmt} : ¬ StandsIn start [] site decl := by
  intro stands
  generalize empty : ([] : List Stmt) = statements at stands
  cases stands <;> exact absurd empty (List.append_ne_nil_of_right_ne_nil _ (List.cons_ne_nil _ _)).symm

/-- What stands in a block is declared by its first statement, stands in the namespace block that
this statement is, or stands in the statements after it. -/
theorem standsIn_cons {start site : Site} {stmt decl : Stmt} {rest : List Stmt} :
    StandsIn start (stmt :: rest) site decl ↔
      (decl ∈ declaredBy stmt ∧ site = start) ∨
      (∃ name body span, stmt = ⟨.namespaced name body, span⟩ ∧
        StandsIn { space := name } body site decl) ∨
      StandsIn (start.after stmt) rest site decl := by
  constructor
  · intro stands
    generalize whole : stmt :: rest = statements at stands
    cases stands with
    | @here _ before after top _ found =>
      rcases List.cons_eq_append_iff.mp whole with ⟨rfl, same⟩ | ⟨before, rfl, rfl⟩
      · obtain ⟨rfl, rfl⟩ := List.cons.inj same
        refine .inl ⟨found, ?_⟩
        rw [importedBy, List.flatMap_nil, List.append_nil]
      · rw [after_importedBy]
        exact .inr (.inr (.here found))
    | @inside _ _ before after body name span _ stands =>
      rcases List.cons_eq_append_iff.mp whole with ⟨rfl, same⟩ | ⟨before, rfl, rfl⟩
      · obtain ⟨rfl, rfl⟩ := List.cons.inj same
        exact .inr (.inl ⟨name, body, span, rfl, stands⟩)
      · exact .inr (.inr (.inside stands))
  · rintro (⟨found, rfl⟩ | ⟨name, body, span, rfl, stands⟩ | stands)
    · have stands := @StandsIn.here site [] rest _ _ found
      rwa [importedBy, List.flatMap_nil, List.append_nil] at stands
    · exact @StandsIn.inside start site [] rest body name span _ stands
    · generalize moved : start.after stmt = next at stands
      cases stands with
      | @here _ before after top _ found =>
        rw [← moved, ← after_importedBy]
        exact @StandsIn.here start (stmt :: before) after _ _ found
      | @inside _ _ before after body name span _ stands =>
        exact @StandsIn.inside start site (stmt :: before) after body name span _ stands

theorem naming_planStmt (site : Site) (stmt : Stmt) :
    (planStmt site.naming stmt).1 = (site.after stmt).naming := by
  obtain ⟨kind, span⟩ := stmt
  rw [naming_after]
  cases kind <;> simp [planStmt, importedBy]

theorem mem_placedIn {context naming : Naming} {decls : List Stmt} {decl : Stmt} :
    (naming, decl) ∈ placedIn context decls ↔ decl ∈ decls ∧ context = naming := by
  simp only [placedIn, List.mem_map, Prod.mk.injEq]
  constructor
  · rintro ⟨_, found, rfl, rfl⟩
    exact ⟨found, rfl⟩
  · rintro ⟨found, rfl⟩
    exact ⟨decl, found, rfl, rfl⟩

mutual

/-- The plan of a block declares exactly what stands in the block, in the contexts of the places. -/
theorem mem_declaredIn_plan (start : Site) (statements : List Stmt) (naming : Naming) (decl : Stmt) :
    (naming, decl) ∈ declaredIn (plan start.naming statements) ↔
      ∃ site, StandsIn start statements site decl ∧ site.naming = naming := by
  cases statements with
  | nil => simp [plan, declaredIn, not_standsIn_nil]
  | cons stmt rest =>
    have first := mem_declaredIn_planStmt start stmt naming decl
    have others := mem_declaredIn_plan (start.after stmt) rest naming decl
    rw [← naming_planStmt] at others
    rw [plan, declaredIn, List.flatMap_append, List.mem_append]
    rw [declaredIn] at first others
    rw [first, others]
    simp only [standsIn_cons, not_standsIn_nil, or_false, or_and_right, exists_or, or_assoc]

theorem mem_declaredIn_planStmt (start : Site) (stmt : Stmt) (naming : Naming) (decl : Stmt) :
    (naming, decl) ∈ declaredIn (planStmt start.naming stmt).2 ↔
      ∃ site, StandsIn start [stmt] site decl ∧ site.naming = naming := by
  obtain ⟨kind, span⟩ := stmt
  simp only [standsIn_cons, not_standsIn_nil, or_false]
  cases kind
  case namespaced name body =>
    have inner := mem_declaredIn_plan { space := name } body naming decl
    have none : decl ∉ declaredBy ⟨.namespaced name body, span⟩ := List.not_mem_nil
    refine inner.trans (exists_congr fun site => and_congr_left' ⟨fun stands => ?_, ?_⟩)
    · exact .inr ⟨name, body, span, rfl, stands⟩
    · rintro (⟨found, -⟩ | ⟨_, _, _, ⟨⟩, stands⟩)
      · exact absurd found none
      · exact stands
  case imports items => simp [planStmt, declaredIn, declaredBy]
  -- any other statement is planned as it is
  all_goals simp [planStmt, declaredIn, mem_placedIn, and_assoc]

end

mutual

/-- A plan has no statement left that opens a namespace or imports names. -/
theorem keepsContext_of_mem_plan (naming : Naming) (statements : List Stmt)
    (placed : wellPlaced statements = true) :
    ∀ planned ∈ plan naming statements, keepsContext false planned.2.kind = true ∧
      everyPart (fun _ => true) keepsContext false planned.2.kind = true := by
  cases statements with
  | nil => simp [plan]
  | cons stmt rest =>
    simp only [wellPlaced, Bool.and_eq_true] at placed
    intro planned member
    rw [plan] at member
    rcases List.mem_append.mp member with first | later
    · exact keepsContext_of_mem_planStmt naming stmt placed.1 planned first
    · exact keepsContext_of_mem_plan _ rest placed.2 planned later

theorem keepsContext_of_mem_planStmt (naming : Naming) (stmt : Stmt)
    (placed : wellPlacedStmt stmt = true) :
    ∀ planned ∈ (planStmt naming stmt).2, keepsContext false planned.2.kind = true ∧
      everyPart (fun _ => true) keepsContext false planned.2.kind = true := by
  obtain ⟨kind, span⟩ := stmt
  cases kind
  case namespaced name body => exact keepsContext_of_mem_plan (.ofNamespace name) body placed
  case imports => simp [planStmt]
  all_goals
    intro planned member
    rw [List.mem_singleton.mp member]
    exact ⟨rfl, placed⟩

end

/-! ### The order of the declarations -/

/-- A statement that declares a function or a class-like type by itself. -/
def declaresType (placed : Placed) : Bool :=
  match placed.2.kind with
  | .function _ | .classLike _ => true
  | _ => false

/-- Declarations in the order in which a file makes them. -/
def declarationOrder (placed : List Placed) : List Placed :=
  placed.filter declaresType ++ (nestedIn placed).declarations

theorem declarations_nestedIn {placed : List Placed}
    (plain : ∀ planned ∈ placed, keepsContext false planned.2.kind = true ∧
      everyPart (fun _ => true) keepsContext false planned.2.kind = true) :
    (nestedIn placed).declarations = declaredIn (placed.filter (!declares ·.2)) := by
  have step (nested : Nested) : (placed.foldl (fun nested (naming, stmt) =>
      if declares stmt then nested else (nestedVisitor naming).stmt stmt nested)
      nested).declarations = nested.declarations ++ declaredIn (placed.filter (!declares ·.2)) := by
    induction placed generalizing nested with
    | nil => exact (List.append_nil _).symm
    | cons planned rest inductionHypothesis =>
      obtain ⟨naming, kind, span⟩ := planned
      have own := plain _ List.mem_cons_self
      have others := inductionHypothesis fun planned member => plain planned (.tail _ member)
      rw [List.foldl_cons, others]
      cases direct : declares ⟨kind, span⟩ with
      | true => simp [direct]
      | false =>
        have found : ((nestedVisitor naming).stmt ⟨kind, span⟩ nested).declarations =
            nested.declarations ++ placedIn naming (declaredBy ⟨kind, span⟩) :=
          finds_stmt naming false kind span nested own.1 own.2
        simp [direct, declaredIn, found]
  exact step {}

/-- A declaration that is a statement of a block declares itself; a constant declares no type. -/
theorem mem_placedIn_of_declares {planned decl : Placed} (direct : declares planned.2 = true) :
    decl ∈ placedIn planned.1 (declaredBy planned.2) ↔ decl = planned ∧ declaresType decl = true := by
  obtain ⟨naming, kind, span⟩ := planned
  cases kind <;> cases direct
  case constants =>
    refine iff_of_false List.not_mem_nil ?_
    rintro ⟨rfl, ⟨⟩⟩
  all_goals
    refine List.mem_singleton.trans ⟨?_, And.left⟩
    rintro rfl
    exact ⟨rfl, rfl⟩

/-- The order has exactly the declarations of the plan. -/
theorem mem_declarationOrder {placed : List Placed}
    (plain : ∀ planned ∈ placed, keepsContext false planned.2.kind = true ∧
      everyPart (fun _ => true) keepsContext false planned.2.kind = true) (decl : Placed) :
    decl ∈ declarationOrder placed ↔ decl ∈ declaredIn placed := by
  simp only [declarationOrder, declarations_nestedIn plain, declaredIn, List.mem_append,
    List.mem_filter, List.mem_flatMap]
  constructor
  · rintro (⟨member, typed⟩ | ⟨planned, ⟨member, -⟩, found⟩)
    · have direct : declares decl.2 = true := by
        obtain ⟨naming, kind, span⟩ := decl
        cases kind <;> first | rfl | cases typed
      exact ⟨decl, member, (mem_placedIn_of_declares direct).mpr ⟨rfl, typed⟩⟩
    · exact ⟨planned, member, found⟩
  · rintro ⟨planned, member, found⟩
    cases direct : declares planned.2 with
    | true =>
      obtain ⟨rfl, typed⟩ := (mem_placedIn_of_declares direct).mp found
      exact .inl ⟨member, typed⟩
    | false => exact .inr ⟨planned, ⟨member, by rw [direct]; rfl⟩, found⟩

/-! ### What the declarations record -/

end FileWalk

/-- The functions and class-like types among the symbols of a file. -/
def FileSymbols.types (symbols : FileSymbols) : FileSymbols :=
  { symbols with constants := {}, globals := {} }

/-- The declarations so far, without constants. -/
def Declared.types (declared : Declared) : Declared :=
  { declared with symbols := declared.symbols.types }

theorem FileSymbols.types_addClass (symbols : FileSymbols) (info : ClassInfo) :
    (symbols.addClass info).types = symbols.types.addClass info := by
  unfold FileSymbols.addClass
  split <;> rfl

/-- What is settled when the declaration of a class begins. -/
def ClassInfo.head (info : ClassInfo) : String × ClassKind :=
  (info.name, info.kind)

theorem ClassInfo.head_addMethod (info : ClassInfo) (method : FunctionInfo) :
    (info.addMethod method).head = info.head := rfl

namespace Declaration

variable (env : FileEnv) (naming : Naming)

theorem head_promote (decl : MethodDecl) (params : List ParamInfo) (info : ClassInfo) :
    (promote env decl params info).head = info.head := by
  unfold promote
  split
  · induction decl.params.zip params generalizing info with
    | nil => rfl
    | cons param rest inductionHypothesis =>
      rw [List.foldl_cons, inductionHypothesis]
      dsimp only
      split <;> rfl
  · rfl

theorem head_properties (items : List Binding) (hint : Option String) (isStatic : Bool)
    (visibility : Visibility) (info : ClassInfo) :
    (properties env naming items hint isStatic visibility info).head = info.head := by
  unfold properties
  induction items generalizing info with
  | nil => rfl
  | cons item rest inductionHypothesis => exact inductionHypothesis _

theorem head_members (withBase : Bool) (members : List Member) (body : ClassBody) :
    (members.foldl (member env naming withBase) body).info.head = body.info.head := by
  induction members generalizing body with
  | nil => rfl
  | cons item rest inductionHypothesis =>
    rw [List.foldl_cons, inductionHypothesis]
    cases item with
    | method decl =>
      unfold member method
      dsimp only
      rw [ClassInfo.head_addMethod, head_promote]
    | property items hint isStatic visibility =>
      exact head_properties env naming items hint isStatic visibility body.info
    | constants | enumCase | traitUse => rfl

theorem head_collectAssignments (assignments : List PropertyAssignment) (info : ClassInfo) :
    (collectAssignments assignments info).head = info.head := by
  unfold collectAssignments
  induction assignments generalizing info with
  | nil => rfl
  | cons assignment rest inductionHypothesis =>
    rw [List.foldl_cons, inductionHypothesis]
    split <;> rfl

theorem name_describe (base : Option BaseMethod) (this : Option String) (signature : Signature)
    (body : Option (List Stmt)) (report : Report) :
    (describe env naming base this signature body report).info.name = signature.name := by
  cases body <;> rfl

/-- A class-like type is recorded under its own name and kind, whatever was declared before it. -/
theorem exists_classLike (decl : ClassDecl) (report : Report) :
    ∃ (info : ClassInfo) (after : Report), info.head = (naming.declared decl.name, decl.kind) ∧
      ∀ symbols, classLike env naming decl { symbols, report } =
        { symbols := symbols.addClass info, report := after } := by
  unfold classLike
  dsimp only
  refine ⟨_, _, ?_, fun symbols => rfl⟩
  rw [head_collectAssignments, head_members]
  rfl

theorem types_constants (items : List ConstItem) (declared : Declared) :
    (constants env naming items declared).types = declared.types := by
  have added (symbols : FileSymbols) : (items.foldl (fun symbols item =>
      symbols.addConstant (naming.declared item.name)
        (constant env naming item.span item.value .everyone)) symbols).types = symbols.types := by
    induction items generalizing symbols with
    | nil => rfl
    | cons item rest inductionHypothesis => exact inductionHypothesis _
  exact congrArg (fun symbols => Declared.mk symbols declared.report) (added declared.symbols)

end Declaration

namespace FileWalk

variable (env : FileEnv)

/-- The constants declared so far have no influence on types. -/
theorem types_declare (declared : Declared) (placed : Placed) :
    (declare env declared.types placed).types = (declare env declared placed).types := by
  obtain ⟨naming, kind, span⟩ := placed
  cases kind
  case classLike decl =>
    obtain ⟨info, report, -, same⟩ := Declaration.exists_classLike env naming decl declared.report
    show (Declaration.classLike env naming decl ⟨declared.symbols.types, declared.report⟩).types =
      (Declaration.classLike env naming decl ⟨declared.symbols, declared.report⟩).types
    rw [same, same, Declared.types, Declared.types, FileSymbols.types_addClass,
      FileSymbols.types_addClass]
    rfl
  case constants items =>
    show (Declaration.constants env naming items _).types =
      (Declaration.constants env naming items _).types
    rw [Declaration.types_constants, Declaration.types_constants]
    rfl
  all_goals rfl

theorem types_foldl_declare (order : List Placed) (declared : Declared) :
    (order.foldl (declare env) declared.types).types = (order.foldl (declare env) declared).types := by
  induction order generalizing declared with
  | nil => rfl
  | cons placed rest inductionHypothesis =>
    rw [List.foldl_cons, List.foldl_cons, ← inductionHypothesis, types_declare, inductionHypothesis]

/-- Only a declaration of a type declares types. -/
theorem types_declare_of_other {placed : Placed} (other : declaresType placed = false)
    (declared : Declared) : (declare env declared placed).types = declared.types := by
  obtain ⟨naming, kind, span⟩ := placed
  cases kind <;> try rfl
  case function | classLike => cases other
  case constants items => exact Declaration.types_constants env naming items declared

theorem types_foldl_filter (placed : List Placed) (declared : Declared) :
    ((placed.filter declaresType).foldl (declare env) declared).types =
      (placed.foldl (declare env) declared).types := by
  induction placed generalizing declared with
  | nil => rfl
  | cons planned rest inductionHypothesis =>
    cases own : declaresType planned with
    | true =>
      rw [List.filter_cons_of_pos own]
      exact inductionHypothesis _
    | false =>
      rw [List.filter_cons_of_neg (by rw [own]; exact Bool.false_ne_true), inductionHypothesis,
        ← types_foldl_declare, ← types_declare_of_other env own declared, types_foldl_declare,
        List.foldl_cons]

theorem types_addGlobals (walk : Walk) (symbols : FileSymbols) :
    (addGlobals walk symbols).types = symbols.types := by
  unfold addGlobals
  induction walk.scope.entries generalizing symbols with
  | nil => rfl
  | cons entry rest inductionHypothesis =>
    rw [List.foldl_cons, inductionHypothesis]
    dsimp only
    split <;> rfl

theorem types_declareDefine (defines : List Define) (declared : Declared) :
    (defines.foldl (declareDefine env) declared).types = declared.types := by
  induction defines generalizing declared with
  | nil => rfl
  | cons define rest inductionHypothesis => exact inductionHypothesis _

/-- The types of a file are those that its declarations declare one after another. -/
theorem types_run (report : Bool) (parsed : ParsedFile) :
    (run env report parsed).symbols.types =
      ((declarationOrder (plan {} parsed.statements)).foldl (declare env)
        { report := { enabled := false } }).symbols.types := by
  rw [symbols_run, types_addGlobals, declareAll, declarationOrder, List.foldl_append]
  refine congrArg Declared.symbols (?_ : Declared.types _ = Declared.types _)
  rw [types_declareDefine, ← types_foldl_declare, ← types_foldl_filter env (plan _ _),
    types_foldl_declare]

/-! ### The keys -/

/-- A symbol is known after some declarations if it was known before or one of them declares it. -/
theorem foldl_declare_iff (Known : Declared → Prop) (Declares : Placed → Prop)
    (step : ∀ declared placed, Known (declare env declared placed) ↔
      Known declared ∨ Declares placed) (order : List Placed) (declared : Declared) :
    Known (order.foldl (declare env) declared) ↔
      Known declared ∨ ∃ placed ∈ order, Declares placed := by
  induction order generalizing declared with
  | nil => simp
  | cons placed rest inductionHypothesis =>
    rw [List.foldl_cons, inductionHypothesis, step, or_assoc]
    simp only [List.mem_cons, or_and_right, exists_or, exists_eq_left]

/-- What one statement adds to the types of a file. -/
theorem declare_cases (declared : Declared) (placed : Placed) :
    (∃ decl span info, placed.2 = ⟨.function decl, span⟩ ∧
      info.name = placed.1.declared decl.name ∧
      (declare env declared placed).symbols = declared.symbols.addFunction info) ∨
    (∃ decl span info, placed.2 = ⟨.classLike decl, span⟩ ∧
      info.head = (placed.1.declared decl.name, decl.kind) ∧
      (declare env declared placed).symbols = declared.symbols.addClass info) ∨
    (declaresType placed = false ∧
      (declare env declared placed).symbols.types = declared.symbols.types) := by
  obtain ⟨naming, kind, span⟩ := placed
  cases kind
  case function decl =>
    exact .inl ⟨decl, span, _, rfl, Declaration.name_describe .., rfl⟩
  case classLike decl =>
    obtain ⟨info, report, head, same⟩ :=
      Declaration.exists_classLike env naming decl declared.report
    exact .inr (.inl ⟨decl, span, info, rfl, head,
      congrArg Declared.symbols (same declared.symbols)⟩)
  all_goals
    exact .inr (.inr ⟨rfl, congrArg Declared.symbols (types_declare_of_other env rfl declared)⟩)

end FileWalk

namespace FileSymbols

/-- The traits of a file, or its classes, interfaces and enums. -/
def classLikes (symbols : FileSymbols) (isTrait : Bool) : Std.TreeMap String ClassInfo :=
  if isTrait then symbols.traits else symbols.classes

theorem mem_insert_iff {Info : Type} {table : Std.TreeMap String Info} {added key : String}
    {info : Info} : key ∈ table.insert added info ↔ key ∈ table ∨ key = added := by
  rw [Std.TreeMap.mem_insert, Std.LawfulEqCmp.compare_eq_iff_eq, eq_comm, or_comm]

theorem functions_addClass (symbols : FileSymbols) (info : ClassInfo) :
    (symbols.addClass info).functions = symbols.functions := by
  unfold addClass
  split <;> rfl

theorem mem_classLikes_addClass {symbols : FileSymbols} {info : ClassInfo} {isTrait : Bool}
    {key : String} :
    key ∈ (symbols.addClass info).classLikes isTrait ↔
      key ∈ symbols.classLikes isTrait ∨
        (info.kind == .trait) = isTrait ∧ key = symbolKey info.name := by
  unfold addClass
  split
  · next same =>
    rw [same]
    cases isTrait
    · exact (or_iff_left (by simp)).symm
    · exact mem_insert_iff.trans (or_congr_right (by simp))
  · next other =>
    rw [beq_false_of_ne other]
    cases isTrait
    · exact mem_insert_iff.trans (or_congr_right (by simp))
    · exact (or_iff_left (by simp)).symm

end FileSymbols

namespace FileWalk

variable (env : FileEnv)

/-- The placed statement is the function that is recorded under the key. -/
def DeclaresFunction (key : String) (placed : Placed) : Prop :=
  ∃ decl span, placed.2 = ⟨.function decl, span⟩ ∧ key = symbolKey (placed.1.declared decl.name)

/-- The placed statement is the class-like type that is recorded under the key, a trait or none. -/
def DeclaresClassLike (isTrait : Bool) (key : String) (placed : Placed) : Prop :=
  ∃ decl span, placed.2 = ⟨.classLike decl, span⟩ ∧ (decl.kind == .trait) = isTrait ∧
    key = symbolKey (placed.1.declared decl.name)

theorem mem_functions_declare (key : String) (declared : Declared) (placed : Placed) :
    key ∈ (declare env declared placed).symbols.functions ↔
      key ∈ declared.symbols.functions ∨ DeclaresFunction key placed := by
  obtain ⟨naming, stmt⟩ := placed
  rcases declare_cases env declared (naming, stmt) with
    ⟨decl, span, info, rfl, name, symbols⟩ | ⟨decl, span, info, rfl, -, symbols⟩ | ⟨other, types⟩
  · rw [symbols]
    refine FileSymbols.mem_insert_iff.trans (or_congr_right ?_)
    simp [DeclaresFunction, name]
  · rw [symbols, FileSymbols.functions_addClass]
    simp [DeclaresFunction]
  · have functions := congrArg FileSymbols.functions types
    refine (iff_of_eq (congrArg (key ∈ ·) functions)).trans (or_iff_left ?_).symm
    rintro ⟨decl, span, rfl, -⟩
    cases other

theorem mem_classLikes_declare (isTrait : Bool) (key : String) (declared : Declared)
    (placed : Placed) :
    key ∈ (declare env declared placed).symbols.classLikes isTrait ↔
      key ∈ declared.symbols.classLikes isTrait ∨ DeclaresClassLike isTrait key placed := by
  obtain ⟨naming, stmt⟩ := placed
  rcases declare_cases env declared (naming, stmt) with
    ⟨decl, span, info, rfl, -, symbols⟩ | ⟨decl, span, info, rfl, head, symbols⟩ | ⟨other, types⟩
  · rw [symbols]
    simp [DeclaresClassLike, FileSymbols.classLikes, FileSymbols.addFunction]
  · obtain ⟨name, kind⟩ := Prod.mk.inj head
    rw [symbols, FileSymbols.mem_classLikes_addClass]
    simp [DeclaresClassLike, name, kind]
  · have tables := congrArg (FileSymbols.classLikes · isTrait) types
    refine (iff_of_eq (congrArg (key ∈ ·) tables)).trans (or_iff_left ?_).symm
    rintro ⟨decl, span, rfl, -⟩
    cases other

/-! ### The declarations of a file -/

theorem names_naming (site : Site) : site.Names site.naming where
  around := by
    rw [Site.naming, around_foldl_addImport]
    unfold Naming.ofNamespace
    split
    · rfl
    · split <;> rfl
  imported _ _ _ := getElem?_imports site.space site.imports

/-- Imports do not change the namespace. -/
theorem declared_naming (site : Site) (name : String) :
    site.naming.declared name = (Naming.ofNamespace site.space).declared name :=
  congrArg (· ++ "\\" ++ name) (congrArg Prod.fst (names_naming site).around)

/-- Declarations of one form in an order are those of that form that stand in the file. -/
theorem exists_placed_iff {order : List Placed} {Stands : Site → Stmt → Prop}
    (members : ∀ naming decl, (naming, decl) ∈ order ↔ ∃ site, Stands site decl ∧ site.naming = naming)
    {Decl : Type} (form : Decl → StmtKind) (Fits : Naming → Decl → Prop) :
    (∃ placed ∈ order, ∃ decl span, placed.2 = ⟨form decl, span⟩ ∧ Fits placed.1 decl) ↔
      ∃ site decl span, Stands site ⟨form decl, span⟩ ∧ Fits site.naming decl := by
  constructor
  · rintro ⟨⟨naming, _⟩, member, decl, span, rfl, fits⟩
    obtain ⟨site, stands, rfl⟩ := (members naming _).mp member
    exact ⟨site, decl, span, stands, fits⟩
  · rintro ⟨site, decl, span, stands, fits⟩
    exact ⟨_, (members site.naming _).mpr ⟨site, stands, rfl⟩, decl, span, rfl, fits⟩

/--
The declaration pass is complete. In a file whose namespaces and imports stand at the top level or
directly in a namespace, the functions that are recorded are exactly those that stand in the file
outside functions and classes, at any depth of control flow, under the keys of their names in the
namespaces where they stand; likewise for classes, interfaces and enums, and for traits. What is
recorded is what these declarations declare one after another, each in the naming context of its own
place: there a name means what the last item imports that gives it, of those in the same namespace
block before the statement that holds the declaration.
-/
theorem declarations_recorded (env : FileEnv) (report : Bool) (parsed : ParsedFile)
    (placed : wellPlaced parsed.statements = true) :
    let symbols := (run env report parsed).symbols
    let Stands := StandsIn {} parsed.statements
    (∀ key, key ∈ symbols.functions ↔ ∃ site decl span, Stands site ⟨.function decl, span⟩ ∧
      key = symbolKey ((Naming.ofNamespace site.space).declared decl.name)) ∧
    (∀ key, key ∈ symbols.classes ↔ ∃ site decl span, Stands site ⟨.classLike decl, span⟩ ∧
      decl.kind ≠ .trait ∧
      key = symbolKey ((Naming.ofNamespace site.space).declared decl.name)) ∧
    (∀ key, key ∈ symbols.traits ↔ ∃ site decl span, Stands site ⟨.classLike decl, span⟩ ∧
      decl.kind = .trait ∧
      key = symbolKey ((Naming.ofNamespace site.space).declared decl.name)) ∧
    ∃ order : List Placed,
      (∀ naming decl, (naming, decl) ∈ order → ∃ site, Stands site decl ∧ site.Names naming) ∧
      (∀ site decl, Stands site decl → ∃ naming, (naming, decl) ∈ order ∧ site.Names naming) ∧
      symbols.types =
        (order.foldl (declare env) { report := { enabled := false } }).symbols.types := by
  intro symbols Stands
  let order := declarationOrder (plan {} parsed.statements)
  have members (naming : Naming) (decl : Stmt) : (naming, decl) ∈ order ↔
      ∃ site, Stands site decl ∧ site.naming = naming :=
    (mem_declarationOrder (keepsContext_of_mem_plan {} parsed.statements placed) _).trans
      (mem_declaredIn_plan {} parsed.statements naming decl)
  have recorded : symbols.types =
      (order.foldl (declare env) { report := { enabled := false } }).symbols.types :=
    types_run env report parsed
  have functions (key : String) :
      key ∈ symbols.functions ↔ ∃ placed ∈ order, DeclaresFunction key placed := by
    have same := congrArg FileSymbols.functions recorded
    refine (iff_of_eq (congrArg (key ∈ ·) same)).trans ?_
    exact (foldl_declare_iff env (key ∈ ·.symbols.functions) (DeclaresFunction key)
      (mem_functions_declare env key) order _).trans (or_iff_right Std.TreeMap.not_mem_emptyc)
  have classLikes (isTrait : Bool) (key : String) :
      key ∈ symbols.classLikes isTrait ↔ ∃ placed ∈ order, DeclaresClassLike isTrait key placed := by
    have same := congrArg (FileSymbols.classLikes · isTrait) recorded
    have none : key ∉ FileSymbols.classLikes {} isTrait := by
      cases isTrait <;> exact Std.TreeMap.not_mem_emptyc
    refine (iff_of_eq (congrArg (key ∈ ·) same)).trans ?_
    exact (foldl_declare_iff env (key ∈ ·.symbols.classLikes isTrait) (DeclaresClassLike isTrait key)
      (mem_classLikes_declare env isTrait key) order _).trans (or_iff_right none)
  simp only [← declared_naming]
  refine ⟨fun key => ?_, fun key => ?_, fun key => ?_, order, fun naming decl member => ?_,
    fun site decl stands => ?_, recorded⟩
  · exact (functions key).trans (exists_placed_iff members .function fun naming decl =>
      key = symbolKey (naming.declared decl.name))
  · simp only [← @beq_eq_false_iff_ne ClassKind]
    exact (classLikes false key).trans (exists_placed_iff members .classLike fun naming decl =>
      (decl.kind == .trait) = false ∧ key = symbolKey (naming.declared decl.name))
  · simp only [← @beq_iff_eq ClassKind]
    exact (classLikes true key).trans (exists_placed_iff members .classLike fun naming decl =>
      (decl.kind == .trait) = true ∧ key = symbolKey (naming.declared decl.name))
  · obtain ⟨site, stands, rfl⟩ := (members naming decl).mp member
    exact ⟨site, stands, names_naming site⟩
  · exact ⟨site.naming, (members site.naming decl).mpr ⟨site, stands, rfl⟩, names_naming site⟩

/-- `function Trace() {}` -/
def traceDecl : FunctionDecl := ⟨"Trace", ⟨50, 55⟩, ⟨41, 60⟩, [], none, false, []⟩

/-- `class Cart extends Base {}` -/
def cartDecl : ClassDecl :=
  ⟨.ordinary, "Cart", ⟨69, 73⟩, ⟨63, 89⟩, ["Base"], [], false, false, none, []⟩

/-- `use Lib\Base; if ($debug) { function Trace() {} } class Cart extends Base {}` -/
def shopBody : List Stmt :=
  [⟨.imports [⟨.classLike, "Lib\\Base", none⟩], ⟨16, 29⟩⟩,
    ⟨.branch ⟨.var "$debug", ⟨34, 40⟩⟩ [⟨.function traceDecl, ⟨41, 60⟩⟩] ⟨41, 62⟩ .nothing, ⟨30, 62⟩⟩,
    ⟨.classLike cartDecl, ⟨63, 89⟩⟩]

/-- The statements above in the namespace `Shop`. -/
def shopFile : ParsedFile where
  statements := [⟨.namespaced (some "Shop") shopBody, ⟨0, 89⟩⟩]

/-- A function in a branch and a class after an import, both in a namespace: the class extends the one
that was imported. -/
theorem declarations_recorded_shopFile :
    let symbols := (run default false shopFile).symbols
    wellPlaced shopFile.statements = true ∧ "\\shop\\trace" ∈ symbols.functions ∧
      "\\shop\\cart" ∈ symbols.classes ∧
      symbols.classes["\\shop\\cart"]?.bind (·.parent) = some "\\Lib\\Base" ∧
      ∃ order : List Placed,
        (∃ naming, (naming, ⟨.classLike cartDecl, ⟨63, 89⟩⟩) ∈ order ∧
          naming.classes["base"]? = some "\\Lib\\Base") ∧
        symbols.types =
          (order.foldl (declare default) { report := { enabled := false } }).symbols.types := by
  intro symbols
  have placed : wellPlaced shopFile.statements = true := by decide
  obtain ⟨functions, classes, -, order, -, contexts, recorded⟩ :=
    declarations_recorded default false shopFile placed
  let start : Site := { space := some "Shop" }
  let imported : Import := ⟨.classLike, "Lib\\Base", none⟩
  let site : Site := ⟨some "Shop", [imported]⟩
  have inside {site : Site} {decl : Stmt} (stands : StandsIn start shopBody site decl) :
      StandsIn {} shopFile.statements site decl :=
    @StandsIn.inside {} site [] [] shopBody (some "Shop") ⟨0, 89⟩ decl stands
  have trace : StandsIn {} shopFile.statements site ⟨.function traceDecl, ⟨41, 60⟩⟩ :=
    inside (@StandsIn.here start [_] [_] _ _ List.mem_cons_self)
  have cart : StandsIn {} shopFile.statements site ⟨.classLike cartDecl, ⟨63, 89⟩⟩ :=
    inside (@StandsIn.here start [_, _] [] _ _ List.mem_cons_self)
  have base : Imported [imported] .classLike "base" "\\Lib\\Base" :=
    ⟨[], imported, [], rfl, ⟨rfl, "Base", ⟨by decide, .inr ⟨"Lib", by decide⟩⟩, by decide +kernel⟩,
      by decide +kernel, nofun⟩
  obtain ⟨naming, member, names⟩ := contexts site _ cart
  refine ⟨placed, (functions _).mpr ⟨site, traceDecl, ⟨41, 60⟩, trace, ?_⟩,
    (classes _).mpr ⟨site, cartDecl, ⟨63, 89⟩, cart, ?_, ?_⟩, ?_,
    order, ⟨naming, member, (names.imported .classLike _ _).mpr base⟩, recorded⟩
  · decide +kernel
  · decide
  · decide +kernel
  · decide +kernel

end FileWalk

end PhpAudit
