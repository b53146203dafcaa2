/-
This file reads declared type hints: `?int`, `A|B`, `(A&B)|null`, `self`, `array`.
-/

import PhpAudit.Naming
import PhpAudit.Types.Set

namespace PhpAudit.Hint

/-- Refinements of strings that count as plain strings. -/
def stringLike : List String :=
  ["class-string", "interface-string", "trait-string", "callable-string", "numeric-string",
    "literal-string", "lowercase-string", "non-empty-string", "array-key"]

private def nonEmpty? (name : String) : Option String :=
  if name.isEmpty then none else some name

/-- The concrete name meant by one atom of a hint; `self` and `parent` need a class around them. -/
def atom? (naming : Naming) (name : String) : Option String :=
  let folded := Text.lower name
  if TypeName.isTrivial folded then
    some folded
  else if stringLike.contains folded then
    some "string"
  else
    match folded with
    | "array" => some "mixed[]"
    | "positive-int" => some "int"
    | "static" | "$this" => some TypeName.lateStatic
    | "self" => nonEmpty? naming.owner
    | "parent" => nonEmpty? naming.parent
    | "closure" | "\\closure" => some "\\Closure"
    | _ => some (naming.className name)

private def isParen (char : Char) : Bool :=
  char == '(' || char == ')'

/-- The values of one part of a hint, between two separators. -/
def part (naming : Naming) (text : String) : List TypeValue :=
  let stripped := Text.trimEndWhile isParen (Text.trimStartWhile isParen (Text.trim text))
  let text := Text.trim stripped
  if text.isEmpty then
    []
  else
    let (nullable, name) := match Text.afterStart? text "?" with
      | some rest => ([TypeValue.concrete "null"], Text.trim rest)
      | none => ([], text)
    nullable ++ ((atom? naming name).map TypeValue.concrete).toList

/-- The type set declared by a hint: precise and sealed. -/
def read (naming : Naming) (hint : String) : TypeSet :=
  let parts := Text.splitBy (fun char => char == '|' || char == '&') hint
  (TypeSet.ofList (parts.flatMap (part naming))).precise.sealed

end PhpAudit.Hint
