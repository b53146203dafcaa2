/-
This file defines regular expressions and what it means to find one in a text. The meaning of a
node gives, for each position at which a match may start, the positions at which it may end; a text
holds a match if there is an end for some start.
-/

import PhpAudit.Unicode.Property

namespace PhpAudit

namespace Regex

/-! ### Conditions -/

/-- A place where a word starts or ends. -/
inductive WordEdge where
  /-- Either edge of a word -/
  | boundary
  /-- No edge of a word -/
  | inside
  | start
  | stop
  /-- No word before, whatever comes after -/
  | startHalf
  /-- No word after, whatever comes before -/
  | stopHalf
deriving DecidableEq, Inhabited, Repr

/-- A condition on a position. -/
inductive Look where
  | textStart
  | textEnd
  /-- The start of a line; `crlf` says whether carriage returns end lines too -/
  | lineStart (crlf : Bool)
  | lineEnd (crlf : Bool)
  /-- An edge of words, which consist of ASCII characters only unless `unicode` -/
  | word (edge : WordEdge) (unicode : Bool)
deriving DecidableEq, Inhabited, Repr

/-- The ASCII code points that words consist of. -/
def asciiWord : CodeSet :=
  ⟨[(0x30, 0x39), (0x41, 0x5A), (0x5F, 0x5F), (0x61, 0x7A)]⟩

/-- Whether an edge lies between two characters, of which it is known whether words hold them. -/
def WordEdge.holds (before after : Bool) : WordEdge → Bool
  | boundary => before != after
  | inside => before == after
  | start => !before && after
  | stop => before && !after
  | startHalf => !before
  | stopHalf => !after

/-- Whether a condition holds at a position of `text`. -/
def Look.holds (text : Array Char) (position : Nat) : Look → Bool
  | textStart => position == 0
  | textEnd => position == text.size
  | lineStart crlf =>
    match before with
    | none => true
    | some char => char == '\n' || (crlf && char == '\r' && after != some '\n')
  | lineEnd crlf =>
    match after with
    | none => true
    | some char =>
      (char == '\n' && !(crlf && before == some '\r')) || (crlf && char == '\r')
  | word edge unicode =>
    let inWord (char : Option Char) : Bool := char.any fun char =>
      (if unicode then Unicode.wordCodes else asciiWord).contains char.toNat
    edge.holds (inWord before) (inWord after)
where
  before : Option Char := if position == 0 then none else text[position - 1]?
  after : Option Char := text[position]?

/-! ### Nodes -/

inductive Node where
  | empty
  | oneOf (set : CodeSet)
  | look (condition : Look)
  | seq (first second : Node)
  | alt (first second : Node)
  /-- At least `least` and at most `most` times in a row -/
  | iterate (inner : Node) (least : Nat) (most : Option Nat)
  /-- A group whose match could be asked for -/
  | group (inner : Node)
deriving Inhabited, Repr

/-! ### Matching -/

/-- The positions reached by one step from any of `positions`. -/
def advance (step : Nat → List Nat) (positions : List Nat) : List Nat :=
  (positions.flatMap step).eraseDups

/-- The positions reached by exactly `count` steps. -/
def exactly (step : Nat → List Nat) : Nat → List Nat → List Nat
  | 0, positions => positions
  | count + 1, positions =>
    if positions.isEmpty then [] else exactly step count (advance step positions)

/-- The positions reached by at most `count` steps; `seen` are those already counted. -/
def upTo (step : Nat → List Nat) : Nat → List Nat → List Nat → List Nat
  | 0, _, seen => seen
  | count + 1, frontier, seen =>
    let fresh := (advance step frontier).filter fun position => !seen.contains position
    if fresh.isEmpty then seen else upTo step count fresh (seen ++ fresh)

/-- The positions at which matches end, for each position at which they start. -/
abbrev Ends := Array (List Nat)

def Ends.after (ends : Ends) (start : Nat) : List Nat :=
  ends.getD start []

/-- The ends of the matches of a node in `text`. -/
def Node.ends (text : Array Char) : Node → Ends
  | empty => each fun start => [start]
  | oneOf set => each fun start =>
    match text[start]? with
    | some char => if set.contains char.toNat then [start + 1] else []
    | none => []
  | look condition => each fun start => if condition.holds text start then [start] else []
  | seq first second =>
    let before := first.ends text
    let after := second.ends text
    each fun start => advance after.after (before.after start)
  | alt first second =>
    let left := first.ends text
    let right := second.ends text
    each fun start => (left.after start ++ right.after start).eraseDups
  | iterate inner least most =>
    let step := (inner.ends text).after
    -- Steps never lead back, so after as many as there are positions the set no longer changes.
    let fewest := min least (text.size + 2)
    let more := min ((most.map (· - least)).getD (text.size + 1)) (text.size + 1)
    each fun start =>
      let reached := exactly step fewest [start]
      upTo step more reached reached
  | group inner => inner.ends text
where
  /-- A value for each position, the end of the text included. -/
  each (value : Nat → List Nat) : Ends := (Array.range (text.size + 1)).map value

end Regex

/-- A regular expression. -/
structure Regex where
  root : Regex.Node
deriving Inhabited, Repr

namespace Regex

/-- Whether `text` holds a match, anywhere. -/
def findsIn (regex : Regex) (text : String) : Bool :=
  (regex.root.ends text.toList.toArray).any fun stops => !stops.isEmpty

end Regex

end PhpAudit
