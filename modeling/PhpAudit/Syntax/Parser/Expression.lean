/-
This file parses expressions. An operand is read first; then the operators that follow it are taken
for as long as they bind tightly enough.
-/

import PhpAudit.Syntax.Parser.Class

namespace PhpAudit.Inner

open Parse

/-- The value between the marks of a node that starts at `start`. -/
def finish (start : Nat) (kind : ExprKind) : Parse Operand := do
  return .value ⟨kind, ← since start⟩

/-- A node of which only the text is known. -/
def finishText (start : Nat) (kind : String → ExprKind) : Parse Operand := do
  let span ← since start
  return .value ⟨kind (← textOf span), span⟩

/-! ### References -/

/-- The operand of `&`, and whether there was one. -/
def withoutReference (expr : Expr) : Expr × Bool :=
  match expr.kind with
  | .unary .reference operand => (operand, true)
  | _ => (expr, false)

/-! ### Calls -/

/-- A call with its arguments; a partial one is known by its text. -/
def finishCall (inner : Inner) (start : Nat) (kind : List Arg → ExprKind) : Parse Operand := do
  match ← inner.openArgs with
  | some list => finish start (kind list)
  | none => finishText start Fragment.unmodeled

/-! ### Arrays -/

/-- One slot of an array or pattern. -/
def item (inner : Inner) : Parse Item := do
  if ← accept? "..." then
    return .entry none (← inner.expr) false true
  else
    let first ← inner.expr
    if ← accept? "=>" then
      let (value, byRef) := withoutReference (← inner.expr)
      return .entry (some first) value byRef false
    else
      let (value, byRef) := withoutReference first
      return .entry none value byRef false

/-- The slots up to the closing mark; a comma by itself leaves one out. -/
def items (inner : Inner) (close : String) : Parse (List Item) := do
  let list ← many do
    if ← isAt [close] then
      return none
    else if ← accept? "," then
      return some .skip
    else
      let slot ← inner.item
      if !(← isAt [close]) then
        let _ ← expect ","
      return some slot
  let _ ← expect close
  return list

/-- The slots that are filled. -/
def filled (list : List Item) : List Item :=
  list.filter fun
    | .skip => false
    | .entry .. => true

/-! ### Variables and members -/

/-- A variable whose name is computed: `$$x` or `${...}`. -/
def dynamicVariable (inner : Inner) : Parse Unit := do
  let _ ← many do
    if ← accept? "$" then return some () else return none
  if ← accept? "$\x7b" then
    let _ ← inner.expr
    let _ ← expect "\x7d"
  else
    let _ ← expectKind .variable

/-- A variable; it has a name unless that is computed. -/
def variableName (inner : Inner) : Parse (Option String) := do
  if ← isKind 0 .variable then
    return some (← take).text
  else
    inner.dynamicVariable
    return none

/-- An expression in braces. -/
def braced (inner : Inner) : Parse Unit := do
  let _ ← expect "\x7b"
  let _ ← inner.expr
  let _ ← expect "\x7d"

/-- The member after an arrow; it has a name unless that is computed. -/
def selector (inner : Inner) : Parse (Option String) := do
  if ← isKind 0 .name then
    return some (← identifier).text
  else if ← isAt ["\x7b"] then
    inner.braced
    return none
  else
    let _ ← inner.variableName
    return none

/-! ### Functions and classes as values -/

/-- Whether the text of a range begins with the word that makes a closure static. -/
def beginsStatic (span : Span) : Parse Bool := do
  return Text.startsWith (Text.trimStart (← textOf span)) "static"

/-- The variables that a closure takes along. -/
def captures : Parse (List Capture) := do
  if ← accept? "use" then
    let _ ← expect "("
    commaList ")" do
      let start ← here
      let byRef ← accept? "&"
      let name ← expectKind .variable
      return { name := name.text, byRef, span := ← since start }
  else
    return []

/-- A closure or an arrow function, which starts at `start`. -/
def functionValue (inner : Inner) (start : Nat) : Parse Operand := do
  let _ ← accept? "static"
  if ← accept? "fn" then
    let _ ← accept? "&"
    let params ← inner.params
    let hint ← resultHint
    let _ ← expect "=>"
    let body ← inner.expr
    let isStatic ← beginsStatic (← since start)
    finish start (.arrow params hint isStatic body)
  else
    let _ ← expect "function"
    let _ ← accept? "&"
    let params ← inner.params
    let captures ← captures
    let hint ← resultHint
    let body ← inner.block
    let isStatic ← beginsStatic (← since start)
    finish start (.closure params captures hint isStatic body)

/-- Whether a class without a name follows `new`. -/
def atAnonymousClass : Parse Bool := do
  if ← isAt ["static"] then return (("class" :: modifierWords).contains (← word 1))
  else isAt ("class" :: "#[" :: modifierWords)

/-- An object after `new`. -/
def newObject (inner : Inner) (start : Nat) : Parse Operand := do
  let _ ← expect "new"
  if ← atAnonymousClass then
    inner.anonymousClass
    finishText start Fragment.unmodeled
  else
    let ref := (← inner.operand .new).ref
    finish start (.new ref (← inner.args?))

/-! ### Strings with parts -/

/-- A string with parts: every piece of code in it must be an expression. -/
def template (inner : Inner) (start : Nat) : Parse Operand := do
  let _ ← expectKind .templateStart
  let _ ← many do
    if ← isKind 0 .templateEnd then
      return none
    else if ← isKind 0 .templateText then
      let _ ← take
      return some ()
    else if ← isAt ["\x7b"] then
      inner.braced
      return some ()
    else
      let _ ← inner.expr
      return some ()
  let _ ← expectKind .templateEnd
  finishText start fun text => .interpolated (Fragment.interpolatedVariables text)

/-! ### Keywords -/

/-- One arm of `match`. -/
def matchArm (inner : Inner) : Parse MatchArm := do
  let conditions ←
    if ← accept? "default" then pure [] else listUntil (isAt ["=>"]) inner.expr
  let _ ← expect "=>"
  return { conditions, body := ← inner.expr }

def matchValue (inner : Inner) (start : Nat) : Parse Operand := do
  let _ ← expect "match"
  let subject ← inner.parenthesized
  let _ ← expect "\x7b"
  let arms ← commaList "\x7d" inner.matchArm
  finish start (.matchOn subject arms)

/-- `yield`, `yield value`, `yield key => value` or `yield from source`. -/
def yieldValue (inner : Inner) (start : Nat) : Parse Operand := do
  let _ ← expect "yield"
  if ← accept? "from" then
    let source ← inner.exprAt .yieldFrom
    finish start (.yieldFrom source)
  else if (← atTerminator) || (← isAt [")", "]", ","]) then
    finish start (.yield none none)
  else
    let first ← inner.exprAt .yield
    if ← accept? "=>" then
      let value ← inner.exprAt .yield
      finish start (.yield (some first) (some value))
    else
      finish start (.yield none (some first))

/--
`clone` of an object. With parentheses after it, it is a call of the function of that name, unless
there is one argument: that is the object, in parentheses.
-/
def cloneValue (inner : Inner) (start : Nat) : Parse Operand := do
  let keyword ← expect "clone"
  let opening ← here
  if ← isAt ["("] then
    match ← inner.openArgs with
    | some [⟨object, false, _⟩] => finish start (.clone ⟨.paren object, ← since opening⟩)
    | some list => finish start (.call keyword.text list)
    | none => finishText start Fragment.unmodeled
  else
    let object ← inner.exprAt .clone
    finish start (.clone object)

/-- Words that stand for a value or a class, unless they are called. -/
def valueWords : List String :=
  ["true", "false", "null", "self", "parent"]

/-- An operand that begins with a word. -/
def wordOperand (inner : Inner) (token : Token) : Parse Operand := do
  let start := token.span.start
  let called := (← word 1) == "("
  let single (kind : ExprKind) : Parse Operand := do
    let _ ← take
    finish start kind
  let relative (ref : ClassRef) : Parse Operand := do
    let _ ← take
    return .relative ref token.span
  let plain : Parse Operand := do
    let _ ← take
    return .name token.text token.span
  if called && valueWords.contains token.word then
    plain
  else if !called && ["list", "match"].contains token.word then
    plain
  else
    match token.word with
    | "true" => single (.boolean true)
    | "false" => single (.boolean false)
    | "null" => single .null
    | "self" => relative .self
    | "parent" => relative .parent
    | "static" =>
      if ["fn", "function"].contains (← word 1) then inner.functionValue start
      else relative .static
    | "fn" | "function" => inner.functionValue start
    | "new" => inner.newObject start
    | "match" => inner.matchValue start
    | "yield" => inner.yieldValue start
    | "clone" => inner.cloneValue start
    | "throw" =>
      let _ ← take
      let exception ← inner.expr
      finish start (.throw exception)
    | "include" | "include_once" | "require" | "require_once" =>
      let _ ← take
      let path ← inner.expr
      finish start (.includeFile path)
    | "print" =>
      let _ ← take
      let _ ← inner.exprAt .print
      finishText start Fragment.construct
    | "exit" | "die" =>
      let _ ← take
      let _ ← inner.args?
      finishText start Fragment.construct
    | "eval" =>
      let _ ← take
      let _ ← inner.parenthesized
      finishText start Fragment.construct
    | "isset" =>
      let _ ← take
      let _ ← expect "("
      let values ← commaList ")" inner.expr
      finish start (.isset values)
    | "empty" =>
      let _ ← take
      let value ← inner.parenthesized
      finish start (.isEmpty value)
    | "array" =>
      let _ ← take
      let _ ← expect "("
      let list ← inner.items ")"
      finish start (.array (filled list))
    | "list" =>
      let _ ← take
      let _ ← expect "("
      let list ← inner.items ")"
      finish start (.list list)
    | word =>
      if magicNames.contains word then single (.magic token.text)
      else if reserved.contains word then failure
      else plain

/-! ### Operands -/

/-- An operator before its operand. -/
def leading (inner : Inner) (token : Token) (level : Precedence) : Parse Operand := do
  let _ ← take
  let operand ← inner.exprAt level
  let op := UnaryOp.ofLeading (← textBetween token.span.start operand.span.start)
  finish token.span.start (.unary op operand)

/-- An operand that begins with a mark. -/
def symbolOperand (inner : Inner) (token : Token) : Parse Operand := do
  let start := token.span.start
  match token.word with
  | "(" =>
    let value ← inner.parenthesized
    finish start (.paren value)
  | "[" =>
    let _ ← take
    let list ← inner.items "]"
    finish start (.array (filled list))
  | "$" | "$\x7b" =>
    inner.dynamicVariable
    finishText start fun text => .dynamicVar (Fragment.mentioned text)
  | "#[" =>
    inner.attributes
    inner.functionValue start
  | _ => failure

/-- The operand at hand, without the operators after it. -/
def primary (inner : Inner) : Parse Operand := do
  match ← peek? 0 with
  | none => failure
  | some token =>
    let start := token.span.start
    match Precedence.ofPrefix? token with
    | some level => inner.leading token level
    | none =>
      match token.kind with
      | .variable => do let _ ← take; finish start (.var token.text)
      | .integer => do let _ ← take; finish start .integer
      | .float => do let _ ← take; finish start .float
      | .string value => do let _ ← take; finish start (.string value)
      | .templateStart => inner.template start
      | .name => inner.wordOperand token
      | .symbol => inner.symbolOperand token
      | _ => failure

/-! ### Operators after an operand -/

/-- What follows `::`. Within `new` an opening parenthesis belongs to `new`. -/
def staticMember (inner : Inner) (start : Nat) (callable : Bool) (ref : ClassRef) :
    Parse Operand := do
  let calls : Parse Bool := do return callable && (← isAt ["("])
  if ← isKind 0 .name then
    let name := (← identifier).text
    if ← calls then inner.finishCall start (.staticCall ref (some name))
    else finish start (.classConstant ref name)
  else if ← isAt ["\x7b"] then
    inner.braced
    if ← calls then inner.finishCall start (.staticCall ref none)
    else finish start (.classConstant ref "")
  else
    let name ← inner.variableName
    if ← calls then inner.finishCall start (.staticCall ref none)
    else finish start (.staticProperty ref name)

/-- An operator that follows its operand. -/
def trailing (inner : Inner) (level : Precedence) (left : Operand) (word : String) :
    Parse Operand := do
  let start := left.span.start
  let callable := !level.reaches .call
  match word with
  | "(" =>
    match left with
    | .name text _ => inner.finishCall start (.call text)
    | _ => inner.finishCall start (.callValue left.expr)
  | "[" =>
    let _ ← take
    if ← accept? "]" then
      finish start (.element left.expr none)
    else
      let index ← inner.expr
      let _ ← expect "]"
      finish start (.element left.expr (some index))
  | "::" =>
    let _ ← take
    inner.staticMember start callable left.ref
  | "->" | "?->" =>
    let nullsafe := word == "?->"
    let _ ← take
    let name ← inner.selector
    if callable && (← isAt ["("]) then
      inner.finishCall start fun list => .methodCall left.expr name list nullsafe
    else
      finish start (.property left.expr name nullsafe)
  | _ =>
    let _ ← take
    let span ← since start
    let op := UnaryOp.ofTrailing (← textBetween left.span.stop span.stop)
    finish start (.unary op left.expr)

/-- The class after `instanceof` as a value; its text ends at `stop`. -/
def refValue (stop : Nat) : ClassRef → Expr
  | .named name => ⟨Fragment.constant name, ⟨stop - name.utf8ByteSize, stop⟩⟩
  | .self => ⟨.unmodeled [], ⟨stop - "self".utf8ByteSize, stop⟩⟩
  | .static => ⟨.unmodeled [], ⟨stop - "static".utf8ByteSize, stop⟩⟩
  | .parent => ⟨.unmodeled [], ⟨stop - "parent".utf8ByteSize, stop⟩⟩
  | .dynamic value => value

/-- Whether an operator changes the variable before which it stands. -/
def changesVariable : UnaryOp → Bool
  | .preIncrement | .preDecrement => true
  | _ => false

/--
Changes the rightmost operand of an expression, and with it the end of everything around it. An
assignment after an operator assigns to that operand.
-/
def changeLast (change : Expr → Expr) : Expr → Expr
  | ⟨.unary op operand, span⟩ =>
    if span.start < operand.span.start && !changesVariable op then
      let operand := changeLast change operand
      ⟨.unary op operand, ⟨span.start, operand.span.stop⟩⟩
    else
      change ⟨.unary op operand, span⟩
  | ⟨.binary op left right, span⟩ =>
    let right := changeLast change right
    ⟨.binary op left right, ⟨span.start, right.span.stop⟩⟩
  | ⟨.instanceOf subject (.dynamic value), span⟩ =>
    let value := changeLast change value
    ⟨.instanceOf subject (.dynamic value), ⟨span.start, value.span.stop⟩⟩
  | ⟨.instanceOf subject ref, span⟩ =>
    let value := change (refValue span.stop ref)
    ⟨.instanceOf subject (.dynamic value), ⟨span.start, value.span.stop⟩⟩
  | ⟨.ternary test yes no, span⟩ =>
    let no := changeLast change no
    ⟨.ternary test yes no, ⟨span.start, no.span.stop⟩⟩
  | expr => change expr

/-- An assignment to what stands on the left; the operator is read from the text between. -/
def assignment (inner : Inner) (left : Expr) : Parse Operand := do
  let _ ← take
  let right ← inner.exprAt .assignment
  let text := Text.trim (← textBetween left.span.stop right.span.start)
  let op := AssignOp.ofText (Text.trim (Text.trimEndWhile (· == '&') text))
  let (value, byRef) := withoutReference right
  let byRef := byRef || Text.endsWith text "&"
  return .value (changeLast (fun target =>
    ⟨.assign target value op byRef, ⟨target.span.start, right.span.stop⟩⟩) left)

/-- A choice between two values after its test. -/
def ternary (inner : Inner) (test : Expr) : Parse Operand := do
  let _ ← take
  let yes ← if ← isAt [":"] then pure none else some <$> inner.expr
  let _ ← expect ":"
  let no ← inner.exprAt .conditional
  finish test.span.start (.ternary test yes no)

/-- An operator between two operands. -/
def binary (inner : Inner) (level : Precedence) (left : Expr) : Parse Operand := do
  let _ ← take
  let right ← inner.operand level
  let text := Text.trim (← textBetween left.span.stop right.span.start)
  let start := left.span.start
  if level == .pipe then finishText start Fragment.unmodeled
  else if Text.sameFolded text "instanceof" then finish start (.instanceOf left right.ref)
  else finish start (.binary (BinaryOp.ofText text) left right.expr)

/-- One more operator after `left`, if it binds at least as tightly as `level` asks for. -/
def extend? (inner : Inner) (level : Precedence) (left : Operand) : Parse (Option Operand) := do
  let word ← word 0
  match Precedence.ofPostfix? word, Precedence.ofInfix? word with
  | some found, _ =>
    if found.reaches level then return some (← inner.trailing level left word) else return none
  | none, some found =>
    if !found.reaches level || (found == level && found.groupsLeft) then
      return none
    else
      match found with
      | .assignment => return some (← inner.assignment left.expr)
      | .conditional => return some (← inner.ternary left.expr)
      | _ => return some (← inner.binary found left.expr)
  | none, none => return none

/-- The operators after `left`; `fuel` bounds their number. -/
def extendAll (inner : Inner) (level : Precedence) : Nat → Operand → Parse Operand
  | 0, _ => failure
  | fuel + 1, left => do
    match ← inner.extend? level left with
    | some next => extendAll inner level fuel next
    | none => return left

/-- An operand with the operators after it that bind at least as tightly as `level`. -/
def operandAt (inner : Inner) (level : Precedence) : Parse Operand := do
  let left ← inner.primary
  inner.extendAll level (← plenty) left

end PhpAudit.Inner
