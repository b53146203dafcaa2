/-
This file walks class hierarchies: it looks up methods, properties and constants, and decides
subtyping. A walk remembers the classes it passed through, so a cyclic hierarchy ends it. Every step
passes through one more class of the index, so the number of indexed classes bounds its depth; a
walk that took more steps would fail.
-/

import PhpAudit.Symbol.Index

namespace PhpAudit

/-- A method found in a hierarchy. -/
structure FoundMethod where
  info : FunctionInfo
  /-- The class in which the lookup ended -/
  owner : String
  /-- The trait that supplied the method to that class -/
  viaTrait : Option String
  /-- The method has a body -/
  implemented : Bool
deriving Inhabited

namespace FoundMethod

/-- The class-like that holds the body. -/
def holder (found : FoundMethod) : String :=
  found.viaTrait.getD found.owner

end FoundMethod

/-- A property found in a hierarchy. -/
structure FoundProperty where
  info : PropertyInfo
  owner : String
  /-- The trait that supplied the property to that class -/
  viaTrait : Option String
deriving Inhabited

/-- A class constant and the class-like that declares it. -/
structure FoundConstant where
  info : ConstInfo
  owner : String
deriving Inhabited

namespace Hierarchy

/-- The keys of the classes that a walk passed through. -/
abbrev Visited := Std.TreeSet String

/-- A computation that passes through classes, or runs out of steps. -/
abbrev Walking := StateT Visited Option

/-- The number of steps that no walk exceeds. -/
def depth (index : Index) : Nat :=
  index.classes.size + index.traits.size + 1

/-- What a walk finds that starts with no class visited. -/
def outcome? {Answer : Type} (walk : Walking Answer) : Option Answer :=
  (walk.run {}).map Prod.fst

/-- Passes through the class `name` and goes on with what is known of it, or answers `missed` if
the class was visited before or is not known. -/
def entering {Answer : Type} (lookup : String → Option ClassInfo) (name : String) (missed : Answer)
    (walk : ClassInfo → Walking Answer) : Walking Answer := do
  if (← get).contains (symbolKey name) then
    return missed
  else
    modify (·.insert (symbolKey name))
    match lookup name with
    | none => return missed
    | some info => walk info

/-- The first name for which `walk` finds something, with what it finds. -/
def firstHit {Found : Type} (walk : String → Walking (Option Found)) :
    List String → Walking (Option (String × Found))
  | [] => return none
  | name :: rest => do
    match ← walk name with
    | some found => return some (name, found)
    | none => firstHit walk rest

/-! ### Methods -/

/-- A later candidate is taken unless the current one is implemented. -/
def prefer (current : Option FoundMethod) (candidate : FoundMethod) : FoundMethod :=
  match current with
  | some current => if current.implemented then current else candidate
  | none => candidate

def isImplemented (result : Option FoundMethod) : Bool :=
  result.any (·.implemented)

/-- The best of what was met so far and what the class `name` itself declares. -/
def preferOwn (method name : String) (info : ClassInfo) (result : Option FoundMethod) :
    Option FoundMethod :=
  match info.method? method with
  | some own =>
    some (prefer result
      { info := own, owner := name, viaTrait := none, implemented := !own.isAbstract })
  | none => result

/-- The best of what was met so far and what an interface declares. -/
def preferDeclared (result : Option FoundMethod) : Option (String × FoundMethod) →
    Option FoundMethod
  | some (_, found) => some (prefer result { found with implemented := false })
  | none => result

/-- Asks the traits of `owner` in turn until one implements the method. -/
def fromTraits (walk : String → Walking (Option FoundMethod)) (owner : String) :
    List String → Option FoundMethod → Walking (Option FoundMethod)
  | [], result => return result
  | name :: rest, result => do
    match ← walk name with
    | none => fromTraits walk owner rest result
    | some found =>
      let picked := prefer result
        { info := found.info, owner, viaTrait := some name, implemented := !found.info.isAbstract }
      if picked.implemented then return some picked else fromTraits walk owner rest (some picked)

/--
One step of the lookup of `method` from the class `name` upwards, given the best declaration met so
far. The class itself comes first, then its traits, the interfaces it extends, its mixins, the
interfaces it implements, and its parent.
-/
def methodStep (index : Index) (method : String)
    (walk : Option FoundMethod → String → Walking (Option FoundMethod))
    (result : Option FoundMethod) (name : String) : Walking (Option FoundMethod) :=
  entering index.classOrTrait? name result fun info => do
    let result := preferOwn method name info result
    if isImplemented result then
      return result
    else
      let result ← fromTraits (walk none) name info.traits.toList result
      if isImplemented result then
        return result
      else
        match ← firstHit (walk none) info.parentInterfaces with
        | some (_, found) => return some { found with implemented := false }
        | none =>
          let known := info.mixins.filter fun mixin => (index.classOrTrait? mixin).isSome
          match ← firstHit (walk none) known with
          | some (_, found) => return some found
          | none =>
            let result := preferDeclared result (← firstHit (walk none) info.interfaces.toList)
            match info.parent with
            | some parent => walk result parent
            | none => return result

/-- Looks up `method` in at most `fuel` nested steps. -/
def methodWalk (index : Index) (method : String) :
    Nat → Option FoundMethod → String → Walking (Option FoundMethod)
  | 0, _, _ => failure
  | fuel + 1, result, name => methodStep index method (methodWalk index method fuel) result name

/--
The method `method` of the class `name`. An implementation anywhere up the parents or in the traits
is preferred to an abstract declaration met before it.
-/
def findMethod? (index : Index) (name method : String) : Option FoundMethod :=
  (outcome? (methodWalk index method (depth index) none name)).join

/-! ### Properties -/

/-- One step of the lookup of `property` from the class `name` upwards; shapes have no properties of
this kind. -/
def propertyStep (index : Index) (property : String)
    (walk : String → Walking (Option FoundProperty)) (name : String) :
    Walking (Option FoundProperty) :=
  entering index.classOrTrait? name none fun info => do
    if info.isShape then
      return none
    else
      match info.property? property with
      | some own => return some { info := own, owner := name, viaTrait := none }
      | none =>
        match ← firstHit walk info.traits.toList with
        | some (used, found) =>
          return some { info := found.info, owner := name, viaTrait := some used }
        | none =>
          match ← firstHit walk info.mixins with
          | some (_, found) => return some found
          | none =>
            match info.parent with
            | some parent => walk parent
            | none => return none

/-- Looks up `property` in at most `fuel` nested steps. -/
def propertyWalk (index : Index) (property : String) :
    Nat → String → Walking (Option FoundProperty)
  | 0, _ => failure
  | fuel + 1, name => propertyStep index property (propertyWalk index property fuel) name

/-- The property `property` of the class `name`; the name of a static one keeps its `$`. -/
def findProperty? (index : Index) (name property : String) : Option FoundProperty :=
  (outcome? (propertyWalk index property (depth index) name)).join

/-! ### Constants -/

/-- The first of some traits that declares the constant itself. -/
def constantOfTrait? (index : Index) (constant : String) (traits : List String) :
    Option FoundConstant :=
  traits.findSome? fun owner =>
    ((index.trait? owner).bind (·.constant? constant)).map fun info => { info, owner }

/-- One step of the lookup of `constant` from the class `name` upwards, the interfaces that it
implements first. -/
def constantStep (index : Index) (constant : String)
    (walk : String → Walking (Option FoundConstant)) (name : String) :
    Walking (Option FoundConstant) :=
  entering index.class? name none fun info => do
    match ← firstHit walk info.interfaces.toList with
    | some (_, found) => return some found
    | none =>
      match info.constant? constant with
      | some own => return some { info := own, owner := name }
      | none =>
        match ← firstHit walk info.parentInterfaces with
        | some (_, found) => return some found
        | none =>
          match constantOfTrait? index constant info.traits.toList with
          | some found => return some found
          | none =>
            match info.parent with
            | some parent => walk parent
            | none => return none

/-- Looks up `constant` in at most `fuel` nested steps. -/
def constantWalk (index : Index) (constant : String) :
    Nat → String → Walking (Option FoundConstant)
  | 0, _ => failure
  | fuel + 1, name => constantStep index constant (constantWalk index constant fuel) name

/-- The constant `constant` of the class `name`. -/
def findConstant? (index : Index) (name constant : String) : Option FoundConstant :=
  (outcome? (constantWalk index constant (depth index) name)).join

/-! ### Subtyping -/

/-- Whether one of some interfaces has the key `target` or, by `walk`, leads to it. -/
def leadsTo (target : String) (walk : String → Walking Bool) : List String → Walking Bool
  | [] => return false
  | name :: rest => do
    if symbolKey name == target then
      return true
    else if ← walk name then
      return true
    else
      leadsTo target walk rest

/-- One step of the search for the interface with key `target` from the class `name` upwards. -/
def interfaceStep (index : Index) (target : String) (walk : String → Walking Bool)
    (name : String) : Walking Bool :=
  entering index.class? name false fun info => do
    if ← leadsTo target walk (info.interfaces.toList ++ info.parentInterfaces) then
      return true
    else
      match info.parent with
      | some parent => walk parent
      | none => return false

/-- Whether the interface with key `target` is listed by the class `name` or above it, in at most
`fuel` nested steps. -/
def interfaceWalk (index : Index) (target : String) : Nat → String → Walking Bool
  | 0, _ => failure
  | fuel + 1, name => interfaceStep index target (interfaceWalk index target fuel) name

/-- Whether the class `name` implements or extends the interface `target`. -/
def implements (index : Index) (name target : String) : Bool :=
  (outcome? (interfaceWalk index (symbolKey target) (depth index) name)).getD false

/-- One step of the search for a parent with key `target` from the class `name` upwards. -/
def parentStep (index : Index) (target : String) (walk : String → Walking Bool)
    (name : String) : Walking Bool :=
  entering index.class? name false fun info =>
    match info.parent with
    | some parent => if symbolKey parent == target then return true else walk parent
    | none => return false

/-- Whether a parent of the class `name` has the key `target`, in at most `fuel` nested steps. -/
def parentWalk (index : Index) (target : String) : Nat → String → Walking Bool
  | 0, _ => failure
  | fuel + 1, name => parentStep index target (parentWalk index target fuel) name

/-- Whether `target` is among the parents of the class `name`. -/
def hasParent (index : Index) (name target : String) : Bool :=
  (outcome? (parentWalk index (symbolKey target) (depth index) name)).getD false

/-- Whether `name` is `target`, extends it or implements it. -/
def instanceOf (index : Index) (name target : String) : Bool :=
  symbolKey name == symbolKey target || hasParent index name target ||
    implements index name target

end Hierarchy

end PhpAudit
