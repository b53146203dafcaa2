/-
This file parses classes, interfaces, traits and enums with their members.
-/

import PhpAudit.Syntax.Parser.Function

namespace PhpAudit.Inner

open Parse

/-! ### Members -/

/-- One constant: its name and its value. -/
def constItem (inner : Inner) : Parse ConstItem := do
  let start ← here
  let name ← identifier
  let _ ← expect "="
  let value ← inner.expr
  return { name := name.text, value, span := ← since start }

/-- The constants after their keyword, up to the end of the statement. -/
def constItems (inner : Inner) : Parse (List ConstItem) := do
  let items ← listUntil atTerminator inner.constItem
  terminator
  return items

/-- The constants after their modifiers; a type may stand before the first name. -/
def constMember (inner : Inner) (list : List String) : Parse Member := do
  let _ ← expect "const"
  if !(["=", ";"].contains (← word 1) || (← isKind 1 .closeTag)) then
    let _ ← hint
  return .constants (← inner.constItems) (visibility list)

/-- How one method of a trait is renamed, or preferred to those of other traits. -/
def adaptation : Parse Unit := do
  let qualified := (← word 1) == "::"
  if qualified then
    let _ ← qualifiedName
    let _ ← expect "::"
  let _ ← identifier
  if ← accept? "as" then
    if ← isAt ["public", "protected", "private"] then
      let _ ← take
    if !(← atTerminator) then
      let _ ← identifier
  else if qualified then
    let _ ← expect "insteadof"
    let _ ← commaSeparated qualifiedName
  else
    failure
  terminator

/-- The traits whose members a class takes, and how it adapts them. -/
def traitUse : Parse Member := do
  let _ ← expect "use"
  let names ← commaSeparated qualifiedName
  if ← accept? "\x7b" then
    let _ ← manyUntil ["\x7d"] adaptation
    let _ ← expect "\x7d"
  else
    terminator
  return .traitUse (names.map (·.text))

/-- The body of a method; one without a body ends with a semicolon. -/
def methodBody (inner : Inner) : Parse (Option (List Stmt)) := do
  if ← accept? ";" then return none else return some (← inner.block)

/-- The method after its modifiers. -/
def method (inner : Inner) (start : Nat) (list : List String) : Parse Member := do
  let _ ← expect "function"
  let _ ← accept? "&"
  let name ← identifier
  let params ← inner.params
  let hint ← resultHint
  let body ← inner.methodBody
  return .method
    { name := name.text
      nameSpan := name.span
      span := ← since start
      params
      hint
      body
      isStatic := list.contains "static"
      isAbstract := list.contains "abstract"
      isFinal := list.contains "final"
      visibility := visibility list }

/-- The case of an enum; its value is known by its text. -/
def enumCase (inner : Inner) (start : Nat) : Parse Member := do
  let _ ← expect "case"
  let name ← identifier
  if ← accept? "=" then
    let _ ← inner.expr
  terminator
  let span ← since start
  let text ← textBetween name.span.stop span.stop
  return .enumCase name.text (Fragment.initializer? text name.span.stop) span

/-- A variable of a property declaration with its initial value. -/
def propertyItem (inner : Inner) : Parse Token := do
  let name ← expectKind .variable
  if ← accept? "=" then
    let _ ← inner.expr
  return name

/-- The items of a property: each initial value is known by the text up to the next item. -/
def bindings (stop : Nat) : List Token → Parse (List Binding)
  | [] => return []
  | name :: rest => do
    let limit := (rest.head?.map (·.span.start)).getD stop
    let text ← textBetween name.span.stop limit
    let value := Fragment.initializer? text name.span.stop
    return { name := name.text, value, span := name.span } :: (← bindings stop rest)

/-- The properties after their modifiers; only a single one may have hooks. -/
def property (inner : Inner) (start : Nat) (list : List String) : Parse Member := do
  let _ ← accept? "var"
  let hint ← if ← isKind 0 .variable then pure none else some <$> hint
  let names ← commaSeparated inner.propertyItem
  if names.length == 1 && (← isAt ["\x7b"]) then inner.hooks else terminator
  let items ← bindings (← since start).stop names
  return .property items hint (list.contains "static") (visibility list)

/-- One member. -/
def member (inner : Inner) : Parse Member := do
  let start ← here
  if ← isAt ["use"] then
    traitUse
  else
    inner.attributes
    if ← isAt ["case"] then
      inner.enumCase start
    else
      let list ← modifiers
      if ← isAt ["function"] then inner.method start list
      else if ← isAt ["const"] then inner.constMember list
      else if !list.isEmpty || (← isAt ["var"]) then inner.property start list
      else failure

/-- The members in braces. -/
def members (inner : Inner) : Parse (List Member) := do
  let _ ← expect "\x7b"
  let list ← manyUntil ["\x7d"] inner.member
  let _ ← expect "\x7d"
  return list

/-! ### Declarations -/

/-- The names after a keyword, if it is at hand. -/
def namesAfter (keyword : String) : Parse (List String) := do
  if ← accept? keyword then
    return (← commaSeparated qualifiedName).map (·.text)
  else
    return []

/-- The kinds of declarations by keyword. -/
def classKind? : String → Option ClassKind
  | "class" => some .ordinary
  | "interface" => some .interface
  | "trait" => some .trait
  | "enum" => some .enum
  | _ => none

/-- The type of the values of an enum: the text after the colon. -/
def backingType : Parse (Option String) := do
  let start ← here
  if ← isAt [":"] then
    let _ ← resultHint
    let text ← textOf (← since start)
    return some (Text.trim (Text.trimStartWhile (· == ':') text))
  else
    return none

/-- A declaration after its attributes; it starts at `start`. -/
def classLike (inner : Inner) (start : Nat) : Parse ClassDecl := do
  let list ← modifiers
  let keyword ← take
  match classKind? keyword.word with
  | none => failure
  | some kind =>
    if kind != .ordinary && !list.isEmpty then
      failure
    let name ← identifier
    let backing ← if kind == .enum then backingType else pure none
    let parents ← if kind == .ordinary || kind == .interface then namesAfter "extends" else pure []
    let interfaces ← if kind == .ordinary || kind == .enum then namesAfter "implements" else pure []
    let members ← inner.members
    return {
      kind
      name := name.text
      nameSpan := name.span
      span := ← since start
      parents
      interfaces
      isAbstract := kind == .interface || list.contains "abstract"
      isFinal := kind == .enum || list.contains "final"
      backing
      members }

/-- A class without a name, after `new`: its arguments, and everything it declares. -/
def anonymousClass (inner : Inner) : Parse Unit := do
  inner.attributes
  let _ ← modifiers
  let _ ← expect "class"
  let _ ← inner.args?
  let _ ← namesAfter "extends"
  let _ ← namesAfter "implements"
  let _ ← inner.members

end PhpAudit.Inner
