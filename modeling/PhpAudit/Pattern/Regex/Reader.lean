/-
This file reads regular expressions from their text. Groups, alternatives, repetitions, character
classes with set operations, anchors and inline flags are understood; back references and look-around
are refused, as is every other text that is not well formed, nests too deep or stands for too large
an automaton.
-/

import PhpAudit.Pattern.Regex.Class
import PhpAudit.Pattern.Regex.Size

namespace PhpAudit.Regex

/-- How deep the parts of an expression may nest. -/
def nestingLimit : Nat := 250

/-! ### Repetitions -/

/-- Decimal digits, without skipped text between and after them. -/
def decimals (flags : Flags) : Nat → List Char → List Char × List Char
  | 0, chars => ([], chars)
  | fuel + 1, chars =>
    match chars with
    | char :: rest =>
      if char.isDigit then
        let (digits, rest) := decimals flags fuel (flags.skip rest)
        (char :: digits, rest)
      else
        ([], chars)
    | [] => ([], [])

/-- What follows blanks and, with the flag `x`, comments after them. -/
def afterBlanks (flags : Flags) (chars : List Char) : List Char :=
  match chars with
  | char :: _ => if Text.isBlank char then flags.skip (chars.dropWhile Text.isBlank) else chars
  | [] => []

/-- A number of 32 bits between blanks. -/
def count? (flags : Flags) (chars : List Char) : Option (Nat × List Char) :=
  let chars := chars.dropWhile Text.isBlank
  let (digits, rest) := decimals flags chars.length chars
  (Number.natural? 10 digits).bind fun value =>
    if value < 0x100000000 then some (value, afterBlanks flags rest) else none

/-- The bounds in `{n}`, `{n,}` or `{n,m}`, after the brace. -/
def bounds? (flags : Flags) (chars : List Char) : Option ((Nat × Option Nat) × List Char) := do
  let (least, rest) ← count? flags (flags.skip chars)
  match rest with
  | '}' :: after => some ((least, some least), after)
  | ',' :: rest =>
    match flags.skip rest with
    | '}' :: after => some ((least, none), after)
    | rest =>
      let (most, rest) ← count? flags rest
      match rest with
      | '}' :: after => if least ≤ most then some ((least, some most), after) else none
      | _ => none
  | _ => none

/-- The bounds of a repetition operator; the mark that makes it reluctant changes no match. -/
def repetition? (flags : Flags) (chars : List Char) :
    Option (Option ((Nat × Option Nat) × List Char)) :=
  let reluctant (rest : List Char) : List Char := match rest with
    | '?' :: rest => rest
    | rest => rest
  match chars with
  | '*' :: rest => some (some ((0, none), reluctant rest))
  | '+' :: rest => some (some ((1, none), reluctant rest))
  | '?' :: rest => some (some ((0, some 1), reluctant rest))
  | '{' :: rest =>
    some ((bounds? flags rest).map fun (bounds, rest) => (bounds, reluctant (flags.skip rest)))
  | _ => none

/-! ### Groups -/

/-- The code points of numbers. -/
def numbers : CodeSet :=
  Unicode.categoryUnion ["nd", "nl", "no"]

/-- The name of a group, after `<`. -/
def groupName? (chars : List Char) : Option (String × List Char) :=
  let isAlphabetic (char : Char) : Bool := Unicode.alphabetic.contains char.toNat
  let isPart (char : Char) : Bool :=
    char == '_' || char == '.' || char == '[' || char == ']' || isAlphabetic char ||
      numbers.contains char.toNat
  match chars with
  | first :: _ =>
    if first == '_' || isAlphabetic first then
      match chars.dropWhile isPart with
      | '>' :: rest => some (String.ofList (chars.takeWhile isPart), rest)
      | _ => none
    else
      none
  | [] => none

/-- What the opening of a group amounts to. -/
inductive Opening where
  /-- A group whose match could be asked for, under its name if it has one -/
  | group (name : Option String)
  /-- A group that only holds its parts together, with the flags inside it -/
  | plain (flags : Flags)
  /-- `(?i)`: the flags change up to the end of the group around it -/
  | setFlags (flags : Flags)

/-- What follows an opening parenthesis. -/
def opening? (flags : Flags) (chars : List Char) : Option (Opening × List Char) :=
  let named (rest : List Char) := (groupName? rest).map fun (name, rest) =>
    (Opening.group (some name), rest)
  match flags.skip chars with
  | '?' :: 'P' :: '<' :: rest => named rest
  | '?' :: '<' :: rest => named rest
  | '?' :: ')' :: _ => none
  | '?' :: rest =>
    match Flags.read? [] false false rest flags with
    | some (inner, ':' :: rest) => some (.plain inner, rest)
    | some (inner, ')' :: rest) => some (.setFlags inner, rest)
    | _ => none
  | rest => some (.group none, rest)

/-! ### Parts -/

/-- A node that was read, and how deep the parts of its text nest. -/
structure Part where
  node : Node
  depth : Nat
deriving Inhabited

namespace Part

/-- The nesting of parts side by side, which are a level of their own if there are several. -/
def joinedDepth (parts : List Part) : Nat :=
  let deepest := parts.foldl (fun deepest part => max deepest part.depth) 0
  if 2 ≤ parts.length then deepest + 1 else deepest

/-- The part that a primitive outside brackets stands for. -/
def ofPrimitive (flags : Flags) : Primitive → Part
  | .literal char =>
    -- Without Unicode only the letters of ASCII have two cases.
    ⟨.oneOf (flags.caseClosed (.single char.toNat)), 0⟩
  | .set members => ⟨.oneOf members, 0⟩
  | .look condition => ⟨.look condition, 0⟩

end Part

/-- The part that a plain character stands for. -/
def plain? (flags : Flags) (char : Char) : Option Part :=
  match char with
  | '.' =>
    let ends : CodeSet :=
      if flags.dotAll then .empty
      else if flags.crlf then ⟨[(0x0A, 0x0A), (0x0D, 0x0D)]⟩
      else .single 0x0A
    (flags.orComplement true ends).map fun set => ⟨.oneOf set, 0⟩
  | '^' => some ⟨.look (if flags.multiLine then .lineStart flags.crlf else .textStart), 0⟩
  | '$' => some ⟨.look (if flags.multiLine then .lineEnd flags.crlf else .textEnd), 0⟩
  | _ => some (.ofPrimitive flags (.literal char))

/-- A part of an alternative; one that only sets flags cannot be repeated. -/
structure Factor where
  part : Part
  isRepeatable : Bool := true

/--
What was read of a group: the alternatives that are complete, and the factors of the one at hand,
both last one first.
-/
structure Unfinished where
  alternatives : List Part := []
  factors : List Factor := []

namespace Unfinished

def push (group : Unfinished) (part : Part) : Unfinished :=
  { group with factors := { part } :: group.factors }

def pushFlags (group : Unfinished) : Unfinished :=
  { group with factors := { part := ⟨.empty, 0⟩, isRepeatable := false } :: group.factors }

/-- The alternative at hand. -/
def sequence (group : Unfinished) : Part :=
  let parts := group.factors.reverse.map Factor.part
  ⟨.sequence (parts.map Part.node), Part.joinedDepth parts⟩

/-- Ends the alternative at hand. -/
def split (group : Unfinished) : Unfinished :=
  { alternatives := group.sequence :: group.alternatives }

/-- All alternatives. -/
def finish (group : Unfinished) : Part :=
  let parts := (group.sequence :: group.alternatives).reverse
  match parts with
  | [] => ⟨.empty, 0⟩
  | first :: rest => ⟨.choice first.node (rest.map Part.node), Part.joinedDepth parts⟩

/-- Repeats the last factor. -/
def repeat? (group : Unfinished) (least : Nat) (most : Option Nat) : Option Unfinished :=
  match group.factors with
  | factor :: rest =>
    if factor.isRepeatable then
      let part : Part := ⟨factor.part.node.times least most, factor.part.depth + 1⟩
      some { group with factors := { part } :: rest }
    else
      none
  | [] => none

end Unfinished

/-! ### Expressions -/

/--
Reads up to the end of a group or of the text. `names` are the names of the groups so far, which
are all different.
-/
def group? : Nat → Flags → List String → Unfinished → List Char →
    Option (Part × List String × List Char)
  | 0, _, _, _, _ => none
  | fuel + 1, flags, names, group, chars =>
    let chars := flags.skip chars
    match repetition? flags chars with
    | some none => none
    | some (some ((least, most), rest)) =>
      (group.repeat? least most).bind fun group => group? fuel flags names group rest
    | none =>
      match chars with
      | [] | ')' :: _ => some (group.finish, names, chars)
      | '|' :: rest => group? fuel flags names group.split rest
      | '(' :: rest =>
        match opening? flags rest with
        | none => none
        | some (.setFlags flags, rest) => group? fuel flags names group.pushFlags rest
        | some (.plain inner, rest) =>
          match group? fuel inner names {} rest with
          | some (part, names, ')' :: rest) =>
            group? fuel flags names (group.push { part with depth := part.depth + 1 }) rest
          | _ => none
        | some (.group name, rest) =>
          if name.any names.contains then
            none
          else
            match group? fuel flags (name.toList ++ names) {} rest with
            | some (part, names, ')' :: rest) =>
              group? fuel flags names (group.push ⟨.group part.node, part.depth + 1⟩) rest
            | _ => none
      | '[' :: rest =>
        (class? flags fuel rest).bind fun (inner, rest) =>
          group? fuel flags names (group.push ⟨.oneOf inner.set, inner.depth⟩) rest
      | '\\' :: rest =>
        (escape? flags rest).bind fun (primitive, rest) =>
          group? fuel flags names (group.push (.ofPrimitive flags primitive)) rest
      | char :: rest =>
        (plain? flags char).bind fun part => group? fuel flags names (group.push part) rest

/-- Reads a regular expression; there is none if the text is not accepted. -/
def ofText? (text : String) : Option Regex :=
  let chars := text.toList
  match group? (2 * chars.length + 2) {} [] {} chars with
  | some (part, _, []) =>
    if part.depth ≤ nestingLimit && fits part.node then some ⟨part.node⟩ else none
  | _ => none

end PhpAudit.Regex
