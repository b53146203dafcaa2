/-
This file parses statements. A statement includes its terminator. Tags, text outside the tags, labels
and the like are statements that do nothing.
-/

import PhpAudit.Syntax.Parser.Expression

namespace PhpAudit.Inner

open Parse

/-- The statements inside a block, or the statement itself. -/
def flattened (stmt : Stmt) : List Stmt :=
  match stmt.kind with
  | .block body => body
  | _ => [stmt]

/-- The body of a branch or loop. -/
def body (inner : Inner) : Parse (List Stmt) := do
  return flattened (← inner.stmt)

/-- The body of a loop: a statement, or statements between a colon and the closing word. -/
def loopBody (inner : Inner) (close : String) : Parse (List Stmt) := do
  if ← accept? ":" then
    let body ← manyUntil [close] inner.stmt
    let _ ← expect close
    terminator
    return body
  else
    inner.body

/-! ### Branches -/

/-- What follows the first branch, in the form with braces. -/
def otherwise (inner : Inner) : Nat → Parse Otherwise
  | 0 => failure
  | fuel + 1 => do
    let start ← here
    if ← accept? "elseif" then
      let test ← inner.parenthesized
      let body ← inner.body
      let span ← since start
      return .orIf test body span (← otherwise inner fuel)
    else if ← accept? "else" then
      return .orElse (← inner.body)
    else
      return .nothing

/-- The words that end a branch in the form with colons. -/
def branchEnds : List String :=
  ["elseif", "else", "endif"]

/-- What follows the first branch, in the form with colons. -/
def colonOtherwise (inner : Inner) : Nat → Parse Otherwise
  | 0 => failure
  | fuel + 1 => do
    let start ← here
    if ← accept? "elseif" then
      let test ← inner.parenthesized
      let _ ← expect ":"
      let body ← manyUntil branchEnds inner.stmt
      let span ← since start
      return .orIf test body span (← colonOtherwise inner fuel)
    else if ← accept? "else" then
      let _ ← expect ":"
      return .orElse (← manyUntil ["endif"] inner.stmt)
    else
      return .nothing

def branch (inner : Inner) : Parse StmtKind := do
  let _ ← expect "if"
  let test ← inner.parenthesized
  let start ← here
  let fuel ← plenty
  if ← accept? ":" then
    let body ← manyUntil branchEnds inner.stmt
    let rest ← inner.colonOtherwise fuel
    let _ ← expect "endif"
    terminator
    return .branch test body (← since start) rest
  else
    let first ← inner.stmt
    return .branch test (flattened first) first.span (← inner.otherwise fuel)

/-- One case of a `switch`, up to the next one; `previous` is where the last statement ended. -/
def switchCase (inner : Inner) (ends : List String) (previous : Option Nat) : Parse Case := do
  let start ← here
  let announced ← match previous with
    | some stop => do
      pure (Text.contains (Text.lower (← textBetween stop start)) "fallthrough")
    | none => pure false
  let test ←
    if ← accept? "default" then
      pure none
    else
      let _ ← expect "case"
      some <$> inner.expr
  if !(← accept? ":") then
    let _ ← expect ";"
  let body ← manyUntil ends inner.stmt
  return { test, body, span := ← since start, announced }

/-- The cases of a `switch`. -/
def switchCases (inner : Inner) (close : String) : Nat → Option Nat → Parse (List Case)
  | 0, _ => failure
  | fuel + 1, previous => do
    if ← isAt [close] then
      return []
    else
      let first ← inner.switchCase ["case", "default", close] previous
      let stop := (first.body.getLast?.map (·.span.stop)).getD first.span.start
      return first :: (← switchCases inner close fuel (some stop))

/-- A terminator that may be left out. -/
def optionalTerminator : Parse Unit := do
  if ← atTerminator then
    terminator

def switch (inner : Inner) : Parse StmtKind := do
  let _ ← expect "switch"
  let subject ← inner.parenthesized
  let fuel ← plenty
  if ← accept? ":" then
    optionalTerminator
    let cases ← inner.switchCases "endswitch" fuel none
    let _ ← expect "endswitch"
    terminator
    return .switch subject cases
  else
    let _ ← expect "\x7b"
    optionalTerminator
    let cases ← inner.switchCases "\x7d" fuel none
    let _ ← expect "\x7d"
    return .switch subject cases

/-! ### Loops -/

def forLoop (inner : Inner) : Parse StmtKind := do
  let _ ← expect "for"
  let _ ← expect "("
  let init ← commaList ";" inner.expr
  let test ← commaList ";" inner.expr
  let step ← commaList ")" inner.expr
  return .forLoop init test step (← inner.loopBody "endfor")

def foreach (inner : Inner) : Parse StmtKind := do
  let _ ← expect "foreach"
  let _ ← expect "("
  let subject ← inner.expr
  let _ ← expect "as"
  let first ← inner.expr
  let (key, target) ← if ← accept? "=>" then do pure (some first, ← inner.expr) else pure (none, first)
  let _ ← expect ")"
  let (value, byRef) := withoutReference target
  return .foreach subject key value byRef (← inner.loopBody "endforeach")

def doWhile (inner : Inner) : Parse StmtKind := do
  let _ ← expect "do"
  let body ← inner.body
  let _ ← expect "while"
  let test ← inner.parenthesized
  terminator
  return .doWhile body test

/-! ### Exceptions -/

def catchClause (inner : Inner) : Parse Catch := do
  let start ← here
  let _ ← expect "catch"
  let _ ← expect "("
  let types := (Text.splitBy (· == '|') (← hint)).map Text.trim
  let name ← if ← isKind 0 .variable then do pure (some (← take).text) else pure none
  let _ ← expect ")"
  let body ← inner.block
  return { types := types.filter (!·.isEmpty), name, body, span := ← since start }

def tryCatch (inner : Inner) : Parse StmtKind := do
  let _ ← expect "try"
  let body ← inner.block
  let catches ← many (optionally "catch" inner.catchClause)
  let start ← here
  if ← accept? "finally" then
    let final ← inner.block
    return .tryCatch body catches (some final) (← since start)
  else
    return .tryCatch body catches none .empty

/-! ### Variables -/

/-- The plain variables that are taken from the global scope. -/
def globals (inner : Inner) : Parse StmtKind := do
  let _ ← expect "global"
  let names ← listUntil atTerminator inner.variableName
  terminator
  return .global (names.filterMap id)

/-- A static variable; its initial value is known by its text. -/
def staticItem (inner : Inner) : Parse Binding := do
  let start ← here
  let name ← expectKind .variable
  if ← accept? "=" then
    let _ ← inner.expr
  let span ← since start
  return { name := name.text, value := Fragment.valueAfterSign? (← textOf span) start, span }

def statics (inner : Inner) : Parse StmtKind := do
  let _ ← expect "static"
  let items ← listUntil atTerminator inner.staticItem
  terminator
  return .static items

/-- The variables that are undefined, known by the text of the statement. -/
def unset (inner : Inner) (start : Nat) : Parse StmtKind := do
  let _ ← expect "unset"
  let _ ← expect "("
  let _ ← commaList ")" inner.expr
  terminator
  return .unset (Fragment.unsetNames (← textOf (← since start)))

/-! ### Namespaces and imports -/

/-- A namespace: a block, or everything up to the next namespace. -/
def namespaced (inner : Inner) : Parse StmtKind := do
  let _ ← expect "namespace"
  let name ← if ← isKind 0 .name then do pure (some (← qualifiedName).text) else pure none
  if ← isAt ["\x7b"] then
    return .namespaced name (← inner.block)
  else
    terminator
    let body ← many do
      if (← isAt ["namespace"]) || (← peek? 0).isNone then return none else return some (← inner.stmt)
    return .namespaced name body

/-- The table that a word before an import names. -/
def importKind : Parse (Option ImportKind) := do
  if ← accept? "function" then return some .function
  else if ← accept? "const" then return some .constant
  else return none

/-- One import; in a group its name follows that of the group. -/
def importItem (kind : ImportKind) (above : Option String) : Parse Import := do
  let name := Text.withoutRoot (← qualifiedName).text
  let rename ← if ← accept? "as" then do pure (some (← identifier).text) else pure none
  let full := match above with
    | some above => Text.withoutRoot above ++ "\\" ++ name
    | none => name
  return { kind, name := full, rename }

def imports : Parse StmtKind := do
  let _ ← expect "use"
  let kind ← importKind
  if (← word 1) == "\\" && (← word 2) == "\x7b" then
    let above := (← qualifiedName).text
    let _ ← expect "\\"
    let _ ← expect "\x7b"
    let items ← commaList "\x7d" do
      let own ← if kind.isNone then importKind else pure none
      importItem ((kind <|> own).getD .classLike) (some above)
    terminator
    return .imports items
  else
    let items ← commaSeparated (importItem (kind.getD .classLike) none)
    terminator
    return .imports items

/-! ### Declarations -/

/-- Whether a function without a name is at hand. -/
def atClosure : Parse Bool := do
  return (← word 1) == "(" || ((← word 1) == "&" && (← word 2) == "(")

/-- A function without a name that is a statement of its own. -/
def closureStmt (inner : Inner) (start : Nat) : Parse StmtKind := do
  let value := (← inner.functionValue start).expr
  terminator
  return .expr value

/-- A function after its attributes; it starts at `start`. -/
def function (inner : Inner) (start : Nat) : Parse StmtKind := do
  if ← atClosure then
    inner.closureStmt start
  else
    let _ ← expect "function"
    let _ ← accept? "&"
    let name ← identifier
    let params ← inner.params
    let hint ← resultHint
    let body ← inner.block
    let byRef := Text.contains (← textBetween start name.span.start) "&"
    return .function
      { name := name.text, nameSpan := name.span, span := ← since start, params, hint, byRef, body }

def constants (inner : Inner) : Parse StmtKind := do
  let _ ← expect "const"
  return .constants (← inner.constItems)

/-! ### Statements without effect -/

/-- Directives and what they apply to. -/
def declare (inner : Inner) : Parse StmtKind := do
  let _ ← expect "declare"
  let _ ← expect "("
  let _ ← commaList ")" inner.constItem
  let _ ← inner.loopBody "enddeclare"
  return .nop

def goto : Parse StmtKind := do
  let _ ← expect "goto"
  let _ ← identifier
  terminator
  return .nop

/-- The end of the code. -/
def halt : Parse StmtKind := do
  let _ ← expect "__halt_compiler"
  let _ ← expect "("
  let _ ← expect ")"
  terminator
  return .nop

/-- Values that are written at once, up to the end of the tag. -/
def echoTag (inner : Inner) : Parse StmtKind := do
  let _ ← take
  let _ ← listUntil atTerminator inner.expr
  terminator
  return .nop

/-! ### Statements -/

/-- The value of a statement that may leave it out. -/
def optionalValue (inner : Inner) : Parse (Option Expr) := do
  let value ← if ← atTerminator then pure none else some <$> inner.expr
  terminator
  return value

def exprStmt (inner : Inner) : Parse StmtKind := do
  let value ← inner.expr
  terminator
  return .expr value

/-- The words that declare a class and the like. -/
def classWords : List String :=
  ["class", "interface", "trait", "enum"]

/-- Whether a word that modifies a class does so here, and is not part of an expression. -/
def atModifiedClass : Parse Bool := do
  if ← isAt ["static"] then return (("class" :: modifierWords).contains (← word 1))
  else if ← isAt modifierWords then
    return !(["::", "(", "->", "?->", "[", "fn", "function"].contains (← word 1))
  else return false

/-- A declaration after its attributes, if it has any; it starts at `start`. -/
def declaration (inner : Inner) (start : Nat) : Parse StmtKind := do
  if (← isAt classWords) || (← atModifiedClass) then
    return .classLike (← inner.classLike start)
  else if ← isAt ["function"] then
    inner.function start
  else if ← isAt ["const"] then
    inner.constants
  else if ← isAt ["fn", "static"] then
    inner.closureStmt start
  else
    failure

/-- The statement that begins with a word or mark. -/
def wordStmt (inner : Inner) (start : Nat) (first : String) : Parse StmtKind := do
  match first with
  | "\x7b" => return .block (← inner.block)
  | ";" => do let _ ← take; return .nop
  | "if" => inner.branch
  | "switch" => inner.switch
  | "while" =>
    let _ ← take
    let test ← inner.parenthesized
    return .whileLoop test (← inner.loopBody "endwhile")
  | "do" => inner.doWhile
  | "for" => inner.forLoop
  | "foreach" => inner.foreach
  | "try" => inner.tryCatch
  | "return" => do let _ ← take; return .returns (← inner.optionalValue)
  | "break" => do let _ ← take; let _ ← inner.optionalValue; return .breaks
  | "continue" => do let _ ← take; let _ ← inner.optionalValue; return .continues
  | "echo" =>
    let _ ← take
    let values ← listUntil atTerminator inner.expr
    terminator
    return .echo values
  | "global" => inner.globals
  | "static" => if ← isKind 1 .variable then inner.statics else inner.exprStmt
  | "unset" => inner.unset start
  | "namespace" => inner.namespaced
  | "use" => imports
  | "declare" => inner.declare
  | "goto" => goto
  | "__halt_compiler" => halt
  | "const" | "class" | "interface" | "trait" | "function" => inner.declaration start
  | "enum" => if (← peek? 1).any isWord then inner.declaration start else inner.exprStmt
  | _ =>
    if ← atModifiedClass then
      inner.declaration start
    else if (← word 1) == ":" && (← peek? 0).any isLabel then
      let _ ← take
      let _ ← take
      return .nop
    else
      inner.exprStmt

/-- A declaration with attributes. The range of constants leaves the attributes out. -/
def attributed (inner : Inner) (start : Nat) : Parse Stmt := do
  inner.attributes
  let afterwards ← here
  let kind ← inner.declaration start
  match kind with
  | .constants _ => return ⟨kind, ← since afterwards⟩
  | _ => return ⟨kind, ← since start⟩

/-- One statement. -/
def stmtAt (inner : Inner) : Parse Stmt := do
  match ← peek? 0 with
  | none => failure
  | some token =>
    let start := token.span.start
    if token.word == "#[" then
      inner.attributed start
    else
      let kind ← match token.kind with
        | .openTag | .closeTag | .inlineText => do let _ ← take; pure .nop
        | .echoTag => inner.echoTag
        | _ => inner.wordStmt start token.word
      return ⟨kind, ← since start⟩

end PhpAudit.Inner
