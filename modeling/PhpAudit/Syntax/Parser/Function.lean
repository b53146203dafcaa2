/-
This file parses what functions, methods and closures share: type hints, modifiers, parameters, and
the hooks that run when a property is read or written.
-/

import PhpAudit.Syntax.Parser.Argument

namespace PhpAudit

namespace Parse

/-! ### Type hints -/

/-- Words with a meaning that are types. -/
def typeWords : List String :=
  ["array", "callable", "null", "true", "false", "static", "self", "parent", "enum", "from"]

def isTypeName (token : Token) : Bool :=
  token.kind == .name && (!isKeyword token.word || typeWords.contains token.word)

/-- Whether the mark at hand joins two types, and does not make a parameter a reference. -/
def joinsTypes : Parse Bool := do
  if ← isAt ["|"] then
    return true
  else if ← isAt ["&"] then
    return !((← isKind 1 .variable) || ["...", "&"].contains (← word 1))
  else
    return false

/-- Takes a hint; groups in parentheses nest at most `fuel` deep. -/
def skipHint : Nat → Parse Unit
  | 0 => failure
  | fuel + 1 => do
    let part : Parse Unit := do
      if ← accept? "?" then
        skipHint fuel
      else if ← accept? "(" then
        skipHint fuel
        let _ ← expect ")"
      else
        let token ← take
        if isTypeName token then return () else failure
    part
    let _ ← many do
      if ← joinsTypes then
        let _ ← take
        part
        return some ()
      else
        return none

/-- The text of a hint. -/
def hint : Parse String := do
  let start ← here
  skipHint (← plenty)
  return Text.trim (← textOf (← since start))

/-- The hint after a colon, if there is one. -/
def resultHint : Parse (Option String) := do
  if ← accept? ":" then return some (← hint) else return none

/-! ### Modifiers -/

/-- The words that modify a declaration. -/
def modifierWords : List String :=
  ["public", "protected", "private", "public(set)", "protected(set)", "private(set)", "static",
    "abstract", "final", "readonly"]

/-- The modifiers at hand. -/
def modifiers : Parse (List String) :=
  many do
    if ← isAt modifierWords then return some (← take).word else return none

/-- The visibility that modifiers give; without one, everyone sees a member. -/
def visibility (list : List String) : Visibility :=
  (list.findSome? fun
    | "private" => some .owner
    | "protected" => some .family
    | "public" => some .everyone
    | _ => none).getD .everyone

end Parse

namespace Inner

open Parse

/-! ### Parameters -/

/-- One parameter, with a parser for the hooks of the property that it may declare. -/
def paramWith (inner : Inner) (hooks : Parse Unit) : Parse Param := do
  let start ← here
  inner.attributes
  let list ← modifiers
  let hint ←
    if (← isAt ["&", "..."]) || (← isKind 0 .variable) then pure none else some <$> hint
  let byRef ← accept? "&"
  let variadic ← accept? "..."
  let name ← expectKind .variable
  let default ← if ← accept? "=" then some <$> inner.expr else pure none
  let hasHooks ← isAt ["\x7b"]
  if hasHooks then
    hooks
  let promoted := if list.isEmpty && !hasHooks then none else some (visibility list)
  return { name := name.text, span := ← since start, hint, default, byRef, variadic, promoted }

/-- The parameters in parentheses, with a parser for hooks. -/
def paramsWith (inner : Inner) (hooks : Parse Unit) : Parse (List Param) := do
  let _ ← expect "("
  commaList ")" (inner.paramWith hooks)

/-! ### Hooks -/

/-- What runs when a property is read or written: nothing yet, a value or a block. -/
def hookBody (inner : Inner) : Parse Unit := do
  if ← accept? ";" then
    return ()
  else if ← accept? "=>" then
    let _ ← inner.expr
    let _ ← expect ";"
  else
    let _ ← inner.block

/-- The hooks of a property; the parameters of hooks nest hooks at most `fuel` deep. -/
def hooksUpTo (inner : Inner) : Nat → Parse Unit
  | 0 => failure
  | fuel + 1 => do
    let _ ← expect "\x7b"
    let _ ← manyUntil ["\x7d"] do
      inner.attributes
      let _ ← modifiers
      let _ ← accept? "&"
      let _ ← identifier
      if ← isAt ["("] then
        let _ ← inner.paramsWith (hooksUpTo inner fuel)
      inner.hookBody
    let _ ← expect "\x7d"

/-- The hooks of a property. -/
def hooks (inner : Inner) : Parse Unit := do
  inner.hooksUpTo (← plenty)

/-- The parameters in parentheses. -/
def params (inner : Inner) : Parse (List Param) :=
  inner.paramsWith inner.hooks

end Inner

end PhpAudit
