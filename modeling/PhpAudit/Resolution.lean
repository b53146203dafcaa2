/-
This file expands deferred type values into the names of concrete types. Results are remembered by
value and by the class that `static` stands for. A value that is being expanded is remembered as
empty, so coming back to it, as mutually recursive functions do, contributes nothing.
-/

import PhpAudit.Hierarchy

namespace PhpAudit.Resolution

/-- A set of names of concrete types. -/
abbrev Names := Std.TreeSet String

/-- A value and the class it is expanded for. -/
abbrev Key := TypeValue × String

/-- The expansions known so far, the latest first. -/
abbrev Memo := List (Key × Names)

/-- A computation that extends the memo, or runs out of steps. -/
abbrev Resolving := StateT Memo Option

/-! ### Rules on names -/

def namesOf (names : List String) : Names :=
  Std.TreeSet.ofList names

def join (first second : Names) : Names :=
  first.insertMany second.toList

/-- Puts `new` in the place of `old`, if that is a member. -/
def rename (old new : String) (names : Names) : Names :=
  if names.contains old then (names.erase old).insert new else names

/-- An array literal without elements counts as an array of anything, unless an array is at hand. -/
def settleEmptyArray (names : Names) : Names :=
  if names.contains TypeName.emptyArray then
    let others := names.erase TypeName.emptyArray
    if others.toList.any TypeName.isArray then others else others.insert "mixed[]"
  else
    names

/-- `static` stands for `owner`, and for nothing outside classes. -/
def bindStatic (owner : String) (names : Names) : Names :=
  if names.contains TypeName.lateStatic then
    let others := names.erase TypeName.lateStatic
    if owner.isEmpty then others else others.insert owner
  else
    names

/-- The global name meant by the last part of a name in a namespace. -/
def rootFallback? (name : String) : Option String :=
  if 1 < name.toList.count '\\' then
    some ("\\" ++ String.ofList (name.toList.reverse.takeWhile (· != '\\')).reverse)
  else
    none

def functionOrGlobal? (index : Index) (name : String) : Option FunctionInfo :=
  index.function? name <|> (rootFallback? name).bind index.function?

def constantOrGlobal? (index : Index) (name : String) : Option ConstInfo :=
  index.constant? name <|> (rootFallback? name).bind index.constant?

/-- The method that yields the elements of a class: array access before iteration. -/
def accessor? (index : Index) (name : String) : Option String :=
  if Hierarchy.implements index name "\\ArrayAccess" || Text.sameFolded name "\\ArrayAccess" then
    some "offsetGet"
  else if Hierarchy.implements index name "\\Traversable" || Text.sameFolded name "\\Iterator" then
    some "current"
  else
    none

/-- The declared type of a parameter in the first interface of `owner` that has it. -/
def baseParam? (index : Index) (position : Nat) (owner method : String) : Option TypeSet :=
  (index.class? owner).bind fun info =>
    info.interfaces.toList.findSome? fun interface =>
      ((index.class? interface).bind (·.method? method)).bind fun declared =>
        declared.params[position]?.map (·.types)

/-! ### Expansion -/

section

-- the rules are the same however the parts of a value are resolved, with a memo or without one
variable {Computing : Type → Type} [Monad Computing] (index : Index)
  (resolve : String → TypeValue → Computing Names)

/-- The names that `step` gives for the members of a list, taken in order. -/
def gather {Source : Type} (step : Source → Computing Names) : List Source → Computing Names
  | [] => pure {}
  | source :: rest => do
    let first ← step source
    let others ← gather step rest
    return join first others

/-- Expands every member of a set for the class `owner`. -/
def ofSet (owner : String) (types : TypeSet) : Computing Names :=
  settleEmptyArray <$> gather (resolve owner) types.members

/-- What `method` returns when called on one of `instances`. -/
def ofMethod (instances : List String) (method : String) : Computing Names :=
  gather (fun name =>
    match Hierarchy.findMethod? index name method with
    | none => pure {}
    | some found => do
      let names ← ofSet resolve name found.info.types
      return match found.viaTrait with
        | some used => rename used found.owner names
        | none => names) instances

/-- The elements of one concrete type. -/
def ofElement (name : String) : Computing Names :=
  if TypeName.isArray name then
    pure (namesOf [TypeName.element name])
  else if name == "mixed" || name == "string" then
    pure (namesOf [name])
  else if TypeName.isClass name then
    match (accessor? index name).bind (Hierarchy.findMethod? index name) with
    | some found => ofSet resolve name found.info.types
    | none => pure {}
  else
    pure {}

/-- The element under `key` of one concrete type; only shapes tell keys apart. -/
def ofElementAt (owner key name : String) : Computing Names :=
  if TypeName.isShape name then
    match (index.class? name).bind (·.property? key) with
    | some found => ofSet resolve owner found.types
    | none => pure {}
  else
    ofElement index resolve name

/-- The property `property` of one concrete type, or what its `__get` returns. -/
def ofProperty (owner property name : String) : Computing Names :=
  match Hierarchy.findProperty? index name property with
  | some found => ofSet resolve owner found.info.types
  | none =>
    match Hierarchy.findMethod? index name "__get" with
    | some getter => ofSet resolve name getter.info.types
    | none => pure {}

/-- Expands one value by one step, leaving the parts to `resolve`. -/
def expand (owner : String) : TypeValue → Computing Names
  | .concrete name => pure (namesOf [name])
  | .global name =>
    match index.global? ("$" ++ name) with
    | some types => ofSet resolve owner types
    | none => pure {}
  | .constant name =>
    match constantOrGlobal? index name with
    | some found => ofSet resolve owner found.types
    | none => pure {}
  | .functionCall name =>
    match functionOrGlobal? index name with
    | some found => ofSet resolve owner found.types
    | none => pure {}
  | .arrayOf element => do
    let names ← resolve owner element
    return namesOf (names.toList.map TypeName.arrayOf)
  | .elementOf array => do
    let names ← resolve owner array
    gather (ofElement index resolve) names.toList
  | .elementAt array key => do
    let names ← resolve owner array
    gather (ofElementAt index resolve owner key) names.toList
  | .methodCall object method => do
    let instances ← resolve owner object
    let names ← ofMethod index resolve instances.toList method
    if names.isEmpty then ofMethod index resolve instances.toList "__call" else return names
  | .property object property => do
    let instances ← resolve owner object
    gather (ofProperty index resolve owner property) instances.toList
  | .staticCall called method =>
    match Hierarchy.findMethod? index called method with
    | some found => do
      let names ← ofSet resolve called found.info.types
      return match found.viaTrait with
        | some used => rename used found.owner names
        | none => names
    | none =>
      match Hierarchy.findMethod? index called "__callStatic" with
      | some magic => ofSet resolve called magic.info.types
      | none => pure {}
  | .staticProperty called property =>
    match Hierarchy.findProperty? index called property with
    | some found => do
      let names ← ofSet resolve called found.info.types
      return match found.viaTrait with
        | some used => rename used found.owner names
        | none => names
    | none => pure {}
  | .classConstant called constant =>
    match Hierarchy.findConstant? index called constant with
    | some found => ofSet resolve owner found.info.types
    | none => pure {}
  | .baseParam position called method =>
    match baseParam? index position called method with
    | some types => ofSet resolve owner types
    | none => pure {}

end

/-- Looks a value up in the memo, or expands it while the memo holds the empty set for it. -/
def remembered (index : Index) (resolve : String → TypeValue → Resolving Names) (owner : String)
    (value : TypeValue) : Resolving Names := do
  match value with
  | .concrete name => return namesOf [name]
  | _ =>
    match (← get).lookup (value, owner) with
    | some known => return known
    | none =>
      modify (((value, owner), {}) :: ·)
      let names ← expand index resolve owner value
      modify (((value, owner), names) :: ·)
      return names

/-- The names of one value for the class `owner`, in at most `fuel` nested steps. -/
def value (index : Index) : Nat → String → TypeValue → Resolving Names
  | 0, _, _ => failure
  | fuel + 1, owner, deferred =>
    bindStatic owner <$> remembered index (value index fuel) owner deferred

/-! ### The number of steps -/

/-- The number of parts of a value, itself included. -/
def weight : TypeValue → Nat
  | .methodCall inner _ | .property inner _ | .arrayOf inner | .elementOf inner
  | .elementAt inner _ => weight inner + 1
  | _ => 1

/-- The sum of the weights of some things. -/
def total {Item : Type} (weight : Item → Nat) : List Item → Nat
  | [] => 0
  | item :: rest => weight item + total weight rest

def setWeight (types : TypeSet) : Nat :=
  total weight types.members

def functionWeight (info : FunctionInfo) : Nat :=
  setWeight info.types + total (fun param => setWeight param.types) info.params

def classWeight (info : ClassInfo) : Nat :=
  total functionWeight info.methods.values +
    total (fun property => setWeight property.types) info.properties.values +
    total (fun constant => setWeight constant.types) info.constants.values

/-- No more values than this occur in the index. -/
def indexWeight (index : Index) : Nat :=
  total classWeight index.classes.values + total classWeight index.traits.values +
    total functionWeight index.functions.values +
    total (fun constant => setWeight constant.types) index.constants.values +
    total (fun symbols => total setWeight symbols.globals.values) index.files.values

/-- No more spellings than this name a class of the index: case and the leading `\` vary. -/
def spellings (index : Index) : Nat :=
  total (fun key => Nat.pow 2 (key.length + 1)) (index.classes.keys ++ index.traits.keys)

/--
Each nested step expands a pair of a value and a class that no step around it expands, so the number
of such pairs bounds the nesting.
-/
def stepBound (index : Index) (types : TypeSet) : Nat :=
  (indexWeight index + setWeight types) * (spellings index + 1) + 2

/-! ### Resolving sets -/

/-- Expands a set in at most `fuel` nested steps. -/
def run? (index : Index) (fuel : Nat) (owner : String) (types : TypeSet) (memo : Memo) :
    Option (Names × Memo) :=
  (ofSet (value index fuel) owner types).run memo

/-- The set of the concrete types with the given names. -/
def toSet (names : Names) : TypeSet :=
  (TypeSet.ofList (names.toList.map TypeValue.concrete)).sealed

/-- Resolves a set for the class `owner`, with the expansions in `memo` known. -/
def resolveWith (index : Index) (owner : String) (types : TypeSet) (memo : Memo) :
    TypeSet × Memo :=
  match run? index (stepBound index types) owner types memo with
  | some (names, memo) => (toSet names, memo)
  | none => (.empty, memo)

/-- Resolves a set for the class `owner`. -/
def resolve (index : Index) (owner : String) (types : TypeSet) : TypeSet :=
  (resolveWith index owner types []).1

end PhpAudit.Resolution
