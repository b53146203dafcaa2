/-
This file proves that the recorded type of a property has every type that a method of its class assigns
to it, wherever in the class the property is declared.

The members of a class are taken one after another, and each adds to two lists that are independent of
each other: the properties that are declared, and the assignments that were remembered. Only at the end
are the declared properties widened by the assignments, so a method may stand before a property that it
assigns to.
-/

import PhpAudit.Proofs.Flow.Meeting
import PhpAudit.Proofs.Flow.Remembering
import PhpAudit.Proofs.Reporting
import PhpAudit.Proofs.Types.Members

namespace PhpAudit

namespace Declaration

/-! ### Tables that are filled one entry after another -/

/-- A property under its key. -/
abbrev PropertyEntry := String × PropertyInfo

def enterAll (table : Std.TreeMap String PropertyInfo) (entries : List PropertyEntry) :
    Std.TreeMap String PropertyInfo :=
  entries.foldl (fun table entry => table.insert entry.1 entry.2) table

theorem enterAll_append (table : Std.TreeMap String PropertyInfo)
    (first second : List PropertyEntry) :
    enterAll table (first ++ second) = enterAll (enterAll table first) second :=
  List.foldl_append

/-- Of several entries with one key the last one counts. -/
theorem getElem?_enterAll (entries : List PropertyEntry) (table : Std.TreeMap String PropertyInfo)
    (key : String) :
    (enterAll table entries)[key]? =
      ((entries.filter (·.1 == key)).getLast?.map (·.2)).or table[key]? := by
  induction entries generalizing table with
  | nil => rfl
  | cons entry rest inductionHypothesis =>
    refine (inductionHypothesis (table.insert entry.1 entry.2)).trans ?_
    rw [Std.TreeMap.getElem?_insert, List.filter_cons]
    by_cases same : entry.1 = key
    · rw [if_pos (beq_iff_eq.mpr same), if_pos (Std.LawfulEqCmp.compare_eq_iff_eq.mpr same),
        List.getLast?_cons]
      cases (rest.filter (·.1 == key)).getLast? <;> rfl
    · rw [if_neg fun equal => same (beq_iff_eq.mp equal),
        if_neg fun equal => same (Std.LawfulEqCmp.compare_eq_iff_eq.mp equal)]

/-! ### Properties that are widened -/

/-- A property with the types that are assigned to it. -/
def widened (assignments : List PropertyAssignment) (property : PropertyInfo) : PropertyInfo :=
  assignments.foldl (fun property assignment =>
    { property with types := property.types.union assignment.types }) property

theorem mem_widened {assignments : List PropertyAssignment} {property : PropertyInfo}
    {type : TypeValue} :
    type ∈ (widened assignments property).types.members ↔
      type ∈ property.types.members ∨ ∃ assignment ∈ assignments, type ∈ assignment.types.members := by
  induction assignments generalizing property with
  | nil => simp [widened]
  | cons assignment rest inductionHypothesis =>
    refine inductionHypothesis.trans ?_
    simp only [TypeSet.mem_union, or_assoc, List.mem_cons, exists_eq_or_imp]

/-- An assignment widens the property that it names, if that is declared. -/
theorem property?_collectAssignments (assignments : List PropertyAssignment) (info : ClassInfo)
    (key : String) :
    (collectAssignments assignments info).property? key =
      (info.property? key).map (widened (assignments.filter (·.name == key))) := by
  induction assignments generalizing info with
  | nil =>
    show info.property? key = (info.property? key).map id
    rw [Option.map_id, id]
  | cons assignment rest inductionHypothesis =>
    unfold collectAssignments
    rw [List.foldl_cons, ← collectAssignments, inductionHypothesis, List.filter_cons]
    by_cases same : assignment.name = key
    · subst same
      rw [if_pos (beq_self_eq_true _)]
      unfold ClassInfo.property?
      cases found : info.properties[assignment.name]? with
      | none => simp [found]
      | some property => simp [widened]
    · rw [if_neg fun equal => same (beq_iff_eq.mp equal)]
      unfold ClassInfo.property?
      cases info.properties[assignment.name]? with
      | none => rfl
      | some property =>
        rw [Std.TreeMap.getElem?_insert,
          if_neg fun equal => same (Std.LawfulEqCmp.compare_eq_iff_eq.mp equal)]

variable (env : FileEnv) (naming : Naming)

/-! ### What the members add -/

/-- The key under which a property is recorded. -/
def propertyKey (isStatic : Bool) (name : String) : String :=
  if isStatic then name else Text.withoutDollar name

/-- The keys of the properties that a member declares. -/
def propertyKeys : Member → List String
  | .property items _ isStatic _ => items.map fun item => propertyKey isStatic item.name
  | .method decl =>
    if Text.sameFolded decl.name "__construct" then
      (decl.params.filter (·.promoted.isSome)).map fun param => Text.withoutDollar param.name
    else
      []
  | .constants _ _ | .enumCase _ _ _ | .traitUse _ => []

/-- The properties that the parameters of a method declare. -/
def promotedEntries (decl : MethodDecl) (params : List ParamInfo) : List PropertyEntry :=
  if Text.sameFolded decl.name "__construct" then
    (decl.params.zip params).filterMap fun (param, described) =>
      param.promoted.map fun visibility => (Text.withoutDollar param.name,
        { position := env.position param.span, types := described.types, visibility })
  else
    []

/-- What omitted types of the parameters of a method are looked up by. -/
def methodBase (withBase : Bool) (decl : MethodDecl) : Option BaseMethod :=
  if withBase then some ⟨naming.owner, decl.name⟩ else none

/-- The properties that a member declares. -/
def entries (withBase : Bool) : Member → List PropertyEntry
  | .property items hint isStatic visibility => items.map fun item =>
    (propertyKey isStatic item.name,
      { position := env.position item.span
        types := match item.value with
          | some value => (hinted naming hint).append (staticType naming value)
          | none => hinted naming hint
        visibility })
  | .method decl => promotedEntries env decl
    (Param.describe (naming.enterFunction decl.name) (methodBase naming withBase decl) decl.params)
  | .constants _ _ | .enumCase _ _ _ | .traitUse _ => []

/-- The assignments to properties that are remembered from a member. -/
def assigned (withBase : Bool) : Member → List PropertyAssignment
  | .method decl =>
    (describe env (naming.enterFunction decl.name) (methodBase naming withBase decl)
      (if decl.isStatic then none else some naming.owner)
      { name := decl.name, span := decl.span, params := decl.params, hint := decl.hint } decl.body
      { enabled := false }).assignments
  | .property _ _ _ _ | .constants _ _ | .enumCase _ _ _ | .traitUse _ => []

theorem keys_promotedEntries (decl : MethodDecl) {params : List ParamInfo}
    (same : params.length = decl.params.length) :
    (promotedEntries env decl params).map (·.1) = propertyKeys (.method decl) := by
  unfold promotedEntries propertyKeys
  dsimp only
  split
  · generalize decl.params = written at same
    induction written generalizing params with
    | nil => rfl
    | cons param rest inductionHypothesis =>
      obtain _ | ⟨described, others⟩ := params
      · cases same
      have tails := inductionHypothesis (Nat.succ.inj same)
      rw [List.zip_cons_cons, List.filterMap_cons, List.filter_cons]
      dsimp only
      cases param.promoted with
      | none => exact tails
      | some visibility => exact congrArg _ tails
  · rfl

theorem keys_entries (withBase : Bool) (item : Member) :
    (entries env naming withBase item).map (·.1) = propertyKeys item := by
  cases item with
  | property items hint isStatic visibility => exact List.map_map
  | method decl =>
    refine keys_promotedEntries env decl ?_
    rw [Param.describe, List.length_map, List.length_zipIdx]
  | constants | enumCase | traitUse => rfl

theorem properties_promote (decl : MethodDecl) (params : List ParamInfo) (info : ClassInfo) :
    (promote env decl params info).properties =
      enterAll info.properties (promotedEntries env decl params) := by
  unfold promote promotedEntries
  split
  · induction decl.params.zip params generalizing info with
    | nil => rfl
    | cons pair rest inductionHypothesis =>
      obtain ⟨param, described⟩ := pair
      rw [List.foldl_cons, inductionHypothesis, List.filterMap_cons]
      dsimp only
      cases param.promoted <;> rfl
  · rfl

theorem properties_properties (items : List Binding) (hint : Option String) (isStatic : Bool)
    (visibility : Visibility) (withBase : Bool) (info : ClassInfo) :
    (properties env naming items hint isStatic visibility info).properties =
      enterAll info.properties (entries env naming withBase
        (.property items hint isStatic visibility)) := by
  unfold properties
  induction items generalizing info with
  | nil => rfl
  | cons item rest inductionHypothesis => exact inductionHypothesis _

theorem params_describe (base : Option BaseMethod) (this : Option String) (signature : Signature)
    (body : Option (List Stmt)) (report : Report) :
    (describe env naming base this signature body report).info.params =
      Param.describe naming base signature.params := by
  cases body <;> rfl

theorem properties_member (withBase : Bool) (body : ClassBody) (item : Member) :
    (member env naming withBase body item).info.properties =
      enterAll body.info.properties (entries env naming withBase item) := by
  cases item with
  | property items hint isStatic visibility =>
    exact properties_properties env naming items hint isStatic visibility withBase body.info
  | method decl =>
    unfold member method ClassInfo.addMethod
    dsimp only
    rw [properties_promote, params_describe]
    rfl
  | constants | enumCase | traitUse => rfl

theorem assignments_member (withBase : Bool) (body : ClassBody) (item : Member) :
    (member env naming withBase body item).assignments =
      body.assignments ++ assigned env naming withBase item := by
  cases item with
  | method decl =>
    rw [assigned, describe_hush env _ _ _ _ _ body.report]
    rfl
  | property | constants | enumCase | traitUse => exact (List.append_nil _).symm

theorem properties_members (withBase : Bool) (members : List Member) (body : ClassBody) :
    (members.foldl (member env naming withBase) body).info.properties =
      enterAll body.info.properties (members.flatMap (entries env naming withBase)) := by
  induction members generalizing body with
  | nil => rfl
  | cons item rest inductionHypothesis =>
    rw [List.foldl_cons, inductionHypothesis, properties_member, List.flatMap_cons, enterAll_append]

theorem assignments_members (withBase : Bool) (members : List Member) (body : ClassBody) :
    (members.foldl (member env naming withBase) body).assignments =
      body.assignments ++ members.flatMap (assigned env naming withBase) := by
  induction members generalizing body with
  | nil => exact (List.append_nil _).symm
  | cons item rest inductionHypothesis =>
    rw [List.foldl_cons, inductionHypothesis, assignments_member, List.flatMap_cons,
      List.append_assoc]

/-! ### What a class records -/

/-- The naming context of the members of a class. -/
def memberNaming (decl : ClassDecl) : Naming :=
  let parent := if decl.kind == .ordinary then decl.parents.head?.map naming.className else none
  naming.enterClass (naming.declared decl.name) (parent.getD "") (decl.kind == .trait)

/-- Whether the parameters of the methods of a class may take their types from its interfaces. -/
def hasInterfaces (decl : ClassDecl) : Bool :=
  !(interfacesOf naming decl).isEmpty

/-- The property that a class has under a key: its last declaration, widened by what is assigned. -/
def recorded? (decl : ClassDecl) (key : String) : Option PropertyInfo :=
  let inner := memberNaming naming decl
  let declarations := decl.members.flatMap (entries env inner (hasInterfaces naming decl))
  let assignments := decl.members.flatMap (assigned env inner (hasInterfaces naming decl))
  (declarations.filter (·.1 == key)).getLast?.map fun entry =>
    widened (assignments.filter (·.name == key)) entry.2

theorem exists_property?_classLike (decl : ClassDecl) (declared : Declared) :
    ∃ info : ClassInfo,
      (classLike env naming decl declared).symbols = declared.symbols.addClass info ∧
      ∀ key, info.property? key = recorded? env naming decl key := by
  unfold classLike
  extract_lets name parent inner interfaces start body
  refine ⟨_, rfl, fun key => ?_⟩
  have table : body.info.properties = enterAll {} _ :=
    properties_members env inner (!interfaces.isEmpty) decl.members _
  have assignments : body.assignments = [] ++ _ :=
    assignments_members env inner (!interfaces.isEmpty) decl.members _
  rw [property?_collectAssignments, ClassInfo.property?, table, getElem?_enterAll, assignments,
    Std.TreeMap.getElem?_emptyc, Option.or_none, Option.map_map, List.nil_append]
  rfl

section

variable {env : FileEnv} {naming : Naming} {decl : ClassDecl}

/-- Whatever a member declares is recorded, and has all types that are assigned to it. -/
theorem exists_recorded? {item : Member} (member : item ∈ decl.members) {key : String}
    (declares : key ∈ propertyKeys item) :
    ∃ property, recorded? env naming decl key = some property ∧
      ∀ assignment ∈ decl.members.flatMap
          (assigned env (memberNaming naming decl) (hasInterfaces naming decl)),
        assignment.name = key → ∀ type ∈ assignment.types, type ∈ property.types := by
  let withBase := hasInterfaces naming decl
  let inner := memberNaming naming decl
  rw [← keys_entries env inner withBase] at declares
  obtain ⟨entry, entered, rfl⟩ := List.mem_map.mp declares
  let same := (decl.members.flatMap (entries env inner withBase)).filter (·.1 == entry.1)
  have found : entry ∈ same := List.mem_filter.mpr
    ⟨List.mem_flatMap.mpr ⟨item, member, entered⟩, beq_self_eq_true entry.1⟩
  have last : same.getLast? = some (same.getLast (List.ne_nil_of_mem found)) :=
    List.getLast?_eq_some_getLast _
  refine ⟨_, congrArg (Option.map _) last, fun assignment remembered named type assigns => ?_⟩
  exact mem_widened.mpr (.inr ⟨assignment, List.mem_filter.mpr ⟨remembered, beq_iff_eq.mpr named⟩,
    assigns⟩)

theorem filter_entries_eq_nil {inner : Naming} {withBase : Bool} {item : Member} {key : String}
    (absent : key ∉ propertyKeys item) :
    (entries env inner withBase item).filter (·.1 == key) = [] := by
  rw [← keys_entries env inner withBase] at absent
  refine List.filter_eq_nil_iff.mpr fun entry entered same => absent ?_
  exact List.mem_map.mpr ⟨entry, entered, beq_iff_eq.mp same⟩

/-- A declaration of properties may be moved over members that declare none of them. -/
theorem recorded?_move {before between after : List Member} {items : List Binding}
    {hint : Option String} {isStatic : Bool} {visibility : Visibility}
    (apart : ∀ item ∈ between, ∀ key ∈ propertyKeys (.property items hint isStatic visibility),
      key ∉ propertyKeys item)
    (key : String) :
    recorded? env naming { decl with
      members := before ++ (between ++ .property items hint isStatic visibility :: after) } key =
    recorded? env naming { decl with
      members := before ++ .property items hint isStatic visibility :: (between ++ after) } key := by
  let moved : Member := .property items hint isStatic visibility
  let inner := memberNaming naming decl
  let withBase := hasInterfaces naming decl
  let keep (item : Member) := (entries env inner withBase item).filter (·.1 == key)
  -- one of the two declares nothing under the key
  have swap : between.flatMap keep ++ keep moved = keep moved ++ between.flatMap keep := by
    by_cases declares : key ∈ propertyKeys moved
    · have none : between.flatMap keep = [] := List.flatMap_eq_nil_iff.mpr fun item member =>
        filter_entries_eq_nil (apart item member key declares)
      rw [none, List.append_nil, List.nil_append]
    · have none : keep moved = [] := filter_entries_eq_nil declares
      rw [none, List.append_nil, List.nil_append]
  have entered : ((before ++ (between ++ moved :: after)).flatMap (entries env inner withBase)).filter
      (·.1 == key) = ((before ++ moved :: (between ++ after)).flatMap
        (entries env inner withBase)).filter (·.1 == key) := by
    rw [List.filter_flatMap, List.filter_flatMap]
    show (before ++ (between ++ moved :: after)).flatMap keep =
      (before ++ moved :: (between ++ after)).flatMap keep
    rw [List.flatMap_append, List.flatMap_append, List.flatMap_append, List.flatMap_cons,
      List.flatMap_cons, List.flatMap_append, ← List.append_assoc (between.flatMap keep), swap,
      List.append_assoc]
  have remembered : (before ++ (between ++ moved :: after)).flatMap (assigned env inner withBase) =
      (before ++ moved :: (between ++ after)).flatMap (assigned env inner withBase) := by
    rw [List.flatMap_append, List.flatMap_append, List.flatMap_append, List.flatMap_cons,
      List.flatMap_cons, List.flatMap_append]
    rfl
  exact congrArg₂ (fun (same : List PropertyEntry) (notes : List PropertyAssignment) =>
    same.getLast?.map fun entry => widened (notes.filter (·.name == key)) entry.2) entered remembered

/-! ### The assignments of a method -/

variable (env naming decl)

/-- The environment in which the body of a method is walked. -/
def methodEnv (method : MethodDecl) : Env :=
  env.walkEnv ((memberNaming naming decl).enterFunction method.name)

/-- The state in which the walk over the body of a method of an object starts. -/
def methodStart (method : MethodDecl) : Walk :=
  let inner := memberNaming naming decl
  let params := Param.describe (inner.enterFunction method.name)
    (methodBase inner (hasInterfaces naming decl) method) method.params
  Flow.startBody (bodyScope params (some inner.owner)) params { enabled := false }

variable {method : MethodDecl} {body : List Stmt}

theorem isEmpty_owner : (memberNaming naming decl).owner.isEmpty = false := by
  unfold memberNaming Naming.enterClass Naming.declared
  simp

variable {decl}

theorem assigned_method (object : method.isStatic = false) (filled : method.body = some body) :
    assigned env (memberNaming naming decl) (hasInterfaces naming decl) (.method method) =
      (Flow.walkStmts (methodEnv env naming decl method) body
        (methodStart naming decl method)).assignments := by
  rw [assigned, object, filled]
  exact Walk.assignments_flushUnused (methodEnv env naming decl method) _

/-- What the walk over a method sees assigned is among the assignments of the members. -/
theorem note_mem_assigned (member : .method method ∈ decl.members) (object : method.isStatic = false)
    (filled : method.body = some body) {filling : Flow.Filling}
    (seen : filling ∈ Flow.fillingsStmts (methodEnv env naming decl method) body
      (methodStart naming decl method)) :
    filling.note (methodEnv env naming decl method) ∈ decl.members.flatMap
      (assigned env (memberNaming naming decl) (hasInterfaces naming decl)) := by
  refine List.mem_flatMap.mpr ⟨_, member, ?_⟩
  rw [assigned_method env naming object filled]
  exact (Flow.walkStmts_remembers (isEmpty_owner naming decl) body _).noted filling seen

end

/-! ### The types of a property -/

/--
A property has the types that the body of a method assigns to it: the walk over the body, from its
start, meets every assignment to the property, and the types that the value has there are recorded.
-/
structure Collects (inner : Env) (start : Walk) (body : List Stmt) (key : String)
    (property : PropertyInfo) : Prop where
  met : ∀ value, (key, value) ∈ Flow.ownStmts inner body →
    ∃ filling ∈ Flow.fillingsStmts inner body start, filling.own = (key, value)
  types : ∀ filling ∈ Flow.fillingsStmts inner body start, filling.name = key →
    ∀ type ∈ filling.types inner, type ∈ property.types

/--
Every property that a class declares has the types that the methods of its objects assign to it, in any
control flow; it does not matter before or after which members the property is declared. The list of
what is assigned leaves out closures and arrow functions, and the keys in the arrays of a `compact`:
what is assigned there is forgotten.
-/
theorem assignments_widen_properties (env : FileEnv) (naming : Naming) (decl : ClassDecl)
    (declared : Declared) :
    ∃ info : ClassInfo,
      (classLike env naming decl declared).symbols = declared.symbols.addClass info ∧
      (∀ item ∈ decl.members, ∀ key ∈ propertyKeys item,
        ∃ property, info.property? key = some property ∧
          ∀ method body, .method method ∈ decl.members → method.isStatic = false →
            method.body = some body → Collects (methodEnv env naming decl method)
              (methodStart naming decl method) body key property) ∧
      (∀ before between after items hint isStatic visibility,
        decl.members = before ++ .property items hint isStatic visibility :: (between ++ after) →
        (∀ item ∈ between, ∀ key ∈ propertyKeys (.property items hint isStatic visibility),
          key ∉ propertyKeys item) →
        ∃ moved : ClassInfo,
          (classLike env naming { decl with
            members := before ++ (between ++ .property items hint isStatic visibility :: after) }
            declared).symbols = declared.symbols.addClass moved ∧
          ∀ key, moved.property? key = info.property? key) ∧
      ∀ (inner : Env) (walk : Walk) span params captures hint isStatic body value,
        (Flow.walkKind inner span (.closure params captures hint isStatic body) walk).assignments =
          walk.assignments ∧
        (Flow.walkKind inner span (.arrow params hint isStatic value) walk).assignments =
          walk.assignments := by
  obtain ⟨info, recorded, entered⟩ := exists_property?_classLike env naming decl declared
  refine ⟨info, recorded, fun item member key declares => ?_,
    fun before between after items hint isStatic visibility split apart => ?_,
    fun inner walk span params captures hint isStatic body value =>
      ⟨Flow.assignments_closure inner walk span params captures hint isStatic body,
        Flow.assignments_arrow inner walk span params hint isStatic value⟩⟩
  · obtain ⟨property, found, widens⟩ := exists_recorded? member declares
    refine ⟨property, (entered key).trans found, fun method body known object filled => ?_⟩
    refine ⟨fun value assigned => ?_, fun filling seen named => ?_⟩
    · exact List.mem_map.mp
        (Flow.fillingsStmts_meets (methodEnv env naming decl method) body _ assigned)
    · exact widens _ (note_mem_assigned env naming known object filled seen) named
  · obtain ⟨moved, enters, reads⟩ := exists_property?_classLike env naming
      { decl with
        members := before ++ (between ++ .property items hint isStatic visibility :: after) } declared
    refine ⟨moved, enters, fun key => ?_⟩
    rw [reads, entered, recorded?_move apart key, ← split]
    rfl

/-- The assignment of a value to a property of `$this`. -/
def store (name : String) (value : Expr) : Expr :=
  ⟨.assign ⟨.property ⟨.var "$this", ⟨0, 5⟩⟩ (some name) false, ⟨0, 9⟩⟩ value .assign false, ⟨0, 13⟩⟩

/-- The method `fill($stock)` with the given body. -/
def fillMethod (body : List Stmt) : MethodDecl where
  name := "fill"
  nameSpan := ⟨20, 24⟩
  span := ⟨11, 90⟩
  params := [⟨"$stock", ⟨25, 31⟩, none, none, false, false, none⟩]
  hint := none
  body := some body
  isStatic := false
  isAbstract := false
  isFinal := false
  visibility := .everyone

/-- The class `Cart` with the given members. -/
def cartDecl (members : List Member) : ClassDecl where
  kind := .ordinary
  name := "Cart"
  nameSpan := ⟨6, 10⟩
  span := ⟨0, 120⟩
  parents := []
  interfaces := []
  isAbstract := false
  isFinal := false
  backing := none
  members := members

/-- The declaration `public $total;`. -/
def totalMember : Member :=
  .property [⟨"$total", none, ⟨100, 106⟩⟩] none false .everyone

/-- The body `if ($stock) { $this->total = 1; } while ($stock) { $this->total = 'none'; }`. -/
def stockBody : List Stmt :=
  [⟨.branch ⟨.var "$stock", ⟨35, 41⟩⟩
      [⟨.expr (store "total" ⟨.integer, ⟨50, 51⟩⟩), ⟨40, 52⟩⟩] ⟨40, 52⟩ .nothing, ⟨33, 52⟩⟩,
    ⟨.whileLoop ⟨.var "$stock", ⟨60, 66⟩⟩
      [⟨.expr (store "total" ⟨.string (some "none"), ⟨80, 86⟩⟩), ⟨70, 87⟩⟩], ⟨55, 88⟩⟩]

/-- The property is declared after the method that assigns an integer and a string to it. -/
theorem assignments_widen_properties_cart :
    ∃ info : ClassInfo,
      (classLike default {} (cartDecl [.method (fillMethod stockBody), totalMember])
        { report := default }).symbols = ({} : FileSymbols).addClass info ∧
      ∃ property, info.property? "total" = some property ∧
        .concrete "int" ∈ property.types ∧ .concrete "string" ∈ property.types := by
  obtain ⟨info, recorded, collects, -⟩ := assignments_widen_properties default {}
    (cartDecl [.method (fillMethod stockBody), totalMember]) { report := default }
  obtain ⟨property, found, has⟩ := collects totalMember
    (List.mem_cons_of_mem _ List.mem_cons_self) "total" (by decide)
  have fills := has (fillMethod stockBody) stockBody List.mem_cons_self rfl rfl
  refine ⟨info, recorded, property, found, ?_, ?_⟩
  · obtain ⟨filling, seen, own⟩ := fills.met ⟨.integer, ⟨50, 51⟩⟩ List.mem_cons_self
    refine fills.types filling seen (congrArg Prod.fst own) _ ?_
    rw [Flow.Filling.types, show filling.value = _ from congrArg Prod.snd own]
    exact TypeSet.mem_named.mpr rfl
  · obtain ⟨filling, seen, own⟩ := fills.met ⟨.string (some "none"), ⟨80, 86⟩⟩
      (List.mem_cons_of_mem _ List.mem_cons_self)
    refine fills.types filling seen (congrArg Prod.fst own) _ ?_
    rw [Flow.Filling.types, show filling.value = _ from congrArg Prod.snd own]
    exact TypeSet.mem_named.mpr rfl

/-- The body `$fill = function () { $this->total = 1; }; $count = fn() => $this->total = 1;`. -/
def deferredBody : List Stmt :=
  [⟨.expr ⟨.assign ⟨.var "$fill", ⟨0, 5⟩⟩
      ⟨.closure [] [] none false [⟨.expr (store "total" ⟨.integer, ⟨50, 51⟩⟩), ⟨40, 52⟩⟩], ⟨30, 53⟩⟩
      .assign false, ⟨30, 53⟩⟩, ⟨30, 54⟩⟩,
    ⟨.expr ⟨.assign ⟨.var "$count", ⟨55, 61⟩⟩
      ⟨.arrow [] none false (store "total" ⟨.integer, ⟨80, 81⟩⟩), ⟨63, 85⟩⟩ .assign false, ⟨55, 85⟩⟩,
      ⟨55, 86⟩⟩]

/--
An integer is assigned to a property of `$this` in a closure and in an arrow function of a method, and
the recorded type of the property has no member.
-/
theorem deferred_assignments_forgotten :
    ∃ info : ClassInfo,
      (classLike default {} (cartDecl [totalMember, .method (fillMethod deferredBody)])
        { report := default }).symbols = ({} : FileSymbols).addClass info ∧
      (∃ property, info.property? "total" = some property ∧ property.types.members = []) ∧
      ∀ (inner : Env) (walk : Walk), .concrete "int" ∈ walk.localType inner ⟨.integer, ⟨50, 51⟩⟩ := by
  let cart := cartDecl [totalMember, .method (fillMethod deferredBody)]
  obtain ⟨info, recorded, entered⟩ := exists_property?_classLike default {} cart { report := default }
  have forgotten : assigned default (memberNaming {} cart) (hasInterfaces {} cart)
      (.method (fillMethod deferredBody)) = [] :=
    (assigned_method default {} rfl rfl).trans (List.eq_nil_of_length_eq_zero (by decide +kernel))
  have remembered : cart.members.flatMap
      (assigned default (memberNaming {} cart) (hasInterfaces {} cart)) = [] := by
    rw [show cart.members = [totalMember, .method (fillMethod deferredBody)] from rfl,
      List.flatMap_cons, List.flatMap_singleton, forgotten, totalMember, assigned, List.append_nil]
  have read : (recorded? default {} cart "total").map (·.types.members) = some [] := by
    rw [recorded?, remembered]
    decide +kernel
  obtain ⟨property, found, members⟩ := Option.map_eq_some_iff.mp read
  exact ⟨info, recorded, ⟨property, (entered "total").trans found, members⟩,
    fun inner walk => TypeSet.mem_named.mpr rfl⟩

end Declaration

end PhpAudit
