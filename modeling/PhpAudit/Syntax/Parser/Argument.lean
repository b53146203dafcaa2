/-
This file parses arguments and attributes. An argument may be given by name, may be unpacked, and in
a call may be left open to be given later.
-/

import PhpAudit.Syntax.Parser.Inner

namespace PhpAudit.Inner

open Parse

/-! ### Arguments -/

/-- Whether the token at hand and the one after it stand for an argument to be given later. -/
def atPlaceholder (mark : String) : Parse Bool := do
  return (← word 0) == mark && [",", ")"].contains (← word 1)

/-- Whether an argument with its name is at hand. -/
def atLabel : Parse Bool := do
  return (← peek? 0).any isWord && (← word 1) == ":"

/-- One argument; none if it is to be given later. The name is what stands before the first colon. -/
def openArg (inner : Inner) : Parse (Option Arg) := do
  let start ← here
  if (← atPlaceholder "...") || (← atPlaceholder "?") then
    let _ ← take
    return none
  else if ← accept? "..." then
    return some { value := ← inner.expr, unpack := true, label := none }
  else if ← atLabel then
    let _ ← take
    let _ ← take
    if ← atPlaceholder "?" then
      let _ ← take
      return none
    else
      let value ← inner.expr
      let text ← textOf (← since start)
      let label := Text.trim ((Text.splitBy (· == ':') text).headD "")
      return some { value, unpack := false, label := some label }
  else
    return some { value := ← inner.expr, unpack := false, label := none }

/-- The arguments of a call in parentheses; none if some of them are to be given later. -/
def openArgs (inner : Inner) : Parse (Option (List Arg)) := do
  let _ ← expect "("
  let list ← commaList ")" inner.openArg
  return list.mapM id

/-- The arguments in parentheses, all of them given. -/
def args (inner : Inner) : Parse (List Arg) := do
  match ← inner.openArgs with
  | some list => return list
  | none => failure

/-- The arguments in parentheses, if there are any. -/
def args? (inner : Inner) : Parse (List Arg) := do
  if ← isAt ["("] then inner.args else return []

/-! ### Attributes -/

/-- One attribute: the name of a class, and arguments for it. -/
def oneAttribute (inner : Inner) : Parse Unit := do
  let _ ← qualifiedName
  let _ ← inner.args?

/-- The attributes at hand. -/
def attributes (inner : Inner) : Parse Unit := do
  let _ ← many (optionally "#[" do
    let _ ← expect "#["
    commaList "]" inner.oneAttribute)

end PhpAudit.Inner
