/-
This file reads classes in brackets: characters, ranges, classes by name and classes in classes,
joined by set operations.
-/

import PhpAudit.Pattern.Regex.Escape

namespace PhpAudit.Regex

/-- A set that was read, and how deep classes nest in its text. -/
structure Nested where
  set : CodeSet
  depth : Nat
deriving Inhabited

/-- `[:name:]` or `[:^name:]`, after its first bracket. -/
def namedClass? : List Char → Option (CodeSet × Bool × List Char)
  | ':' :: rest =>
    let (negated, rest) := match rest with
      | '^' :: rest => (true, rest)
      | rest => (false, rest)
    match rest.dropWhile (· != ':') with
    | ':' :: ']' :: after =>
      (asciiClass? (String.ofList (rest.takeWhile (· != ':')))).map fun set =>
        (set, negated, after)
    | _ => none
  | _ => none

/-! ### Ranges -/

/-- One character or escape of a class. -/
def classPrimitive? (flags : Flags) : List Char → Option (Primitive × List Char)
  | '\\' :: rest => escape? flags rest
  | char :: rest => some (.literal char, rest)
  | [] => none

/-- The next character that counts; of a comment only its mark is skipped. -/
def peek (flags : Flags) (chars : List Char) : Option Char :=
  if flags.extended then find false chars <|> chars.head? else chars.head?
where
  find : (inComment : Bool) → List Char → Option Char
    | _, [] => none
    | inComment, char :: rest =>
      if Text.isBlank char then find inComment rest
      else if !inComment && char == '#' then find true rest
      else some char

/-- A range of characters; without Unicode they are all ASCII. -/
def range? (flags : Flags) (first last : Char) : Option CodeSet :=
  if first ≤ last && (flags.unicode || last.toNat < 0x80) then some ⟨[(first.toNat, last.toNat)]⟩
  else none

/-- A character, an escape or a range of a class. -/
def classRange? (flags : Flags) (chars : List Char) : Option (CodeSet × List Char) := do
  let (first, rest) ← classPrimitive? flags chars
  let rest := flags.skip rest
  let after? := match rest with
    | '-' :: after =>
      -- Before a bracket or another hyphen, a hyphen makes no range.
      match peek flags after with
      | some ']' | some '-' => none
      | _ => some (flags.skip after)
    | _ => none
  match after? with
  | none =>
    match first with
    | .literal char => (range? flags char char).map fun set => (set, rest)
    | .set set => some (set, rest)
    | .look _ => none
  | some after =>
    let (last, rest) ← classPrimitive? flags after
    match first, last with
    | .literal first, .literal last => (range? flags first last).map fun set => (set, rest)
    | _, _ => none

/-! ### Set operations -/

inductive SetOperation where
  | inter
  | difference
  | symmetricDifference
deriving DecidableEq, Inhabited, Repr

def SetOperation.apply (first second : CodeSet) : SetOperation → CodeSet
  | inter => first.inter second
  | difference => first.difference second
  | symmetricDifference => first.symmetricDifference second

/-- The members of a class that stand side by side. -/
structure Members where
  ranges : List (Nat × Nat) := []
  count : Nat := 0
  depth : Nat := 0

namespace Members

def add (members : Members) (set : CodeSet) (depth : Nat) : Members :=
  { ranges := set.ranges ++ members.ranges, count := members.count + 1,
    depth := max members.depth depth }

/-- The union of the members, which is a level of its own if there are several. -/
def nested (members : Members) : Nested :=
  { set := .ofRanges members.ranges
    depth := if 2 ≤ members.count then members.depth + 1 else members.depth }

end Members

/-- The left side of a set operation whose right side is being read. -/
abbrev Pending := Option (Nested × SetOperation)

/-- Finishes the right side of a set operation. -/
def settle (flags : Flags) (pending : Pending) (members : Members) : Nested :=
  let second := members.nested
  match pending with
  | none => second
  | some (first, operation) =>
    { set := operation.apply (flags.caseClosed first.set) (flags.caseClosed second.set)
      depth := max first.depth second.depth + 1 }

/-! ### Brackets -/

/-- The leading hyphens of a class, or a bracket as its first member. -/
def classLead (flags : Flags) : Nat → Members → List Char → Members × List Char
  | 0, members, chars => (members, chars)
  | fuel + 1, members, chars =>
    match chars with
    | '-' :: rest => classLead flags fuel (members.add (.single 0x2D) 0) (flags.skip rest)
    | ']' :: rest =>
      if members.count == 0 then (members.add (.single 0x5D) 0, flags.skip rest)
      else (members, chars)
    | _ => (members, chars)

mutual

/-- A class after its first bracket. -/
def class? (flags : Flags) : Nat → List Char → Option (Nested × List Char)
  | 0, _ => none
  | fuel + 1, chars =>
    let (negated, chars) := match flags.skip chars with
      | '^' :: rest => (true, flags.skip rest)
      | rest => (false, rest)
    let (lead, chars) := classLead flags chars.length {} chars
    match classItems? flags fuel none lead chars with
    | some (inner, rest) =>
      (flags.orComplement negated (flags.caseClosed inner.set)).map fun set =>
        (⟨set, inner.depth + 1⟩, rest)
    | none => none

/-- The members of a class up to its closing bracket; `members` are those already read. -/
def classItems? (flags : Flags) : Nat → Pending → Members → List Char → Option (Nested × List Char)
  | 0, _, _, _ => none
  | fuel + 1, pending, members, chars =>
    let operate (operation : SetOperation) (rest : List Char) :=
      classItems? flags fuel (some (settle flags pending members, operation)) {} rest
    match flags.skip chars with
    | [] => none
    | ']' :: rest => some (settle flags pending members, rest)
    | '&' :: '&' :: rest => operate .inter rest
    | '-' :: '-' :: rest => operate .difference rest
    | '~' :: '~' :: rest => operate .symmetricDifference rest
    | '[' :: rest =>
      match namedClass? rest with
      | some (set, negated, rest) =>
        match flags.orComplement negated (flags.caseClosed set) with
        | some set => classItems? flags fuel pending (members.add set 0) rest
        | none => none
      | none =>
        match class? flags fuel rest with
        | some (inner, rest) =>
          classItems? flags fuel pending (members.add inner.set inner.depth) rest
        | none => none
    | chars =>
      match classRange? flags chars with
      | some (set, rest) => classItems? flags fuel pending (members.add set 0) rest
      | none => none

end

end PhpAudit.Regex
