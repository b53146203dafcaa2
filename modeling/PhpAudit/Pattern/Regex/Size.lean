/-
This file measures the automata that regular expressions stand for: one that reads a text forwards
and one that reads it backwards, byte by byte. An expression whose automaton is too large is not
accepted, so that a short text with large counts cannot exhaust the memory.

A state takes 32 bytes, a byte range of a state with several successors 8 more, and a way out of a
state that only branches 4 more.
-/

import PhpAudit.Pattern.Regex.Build
import PhpAudit.Text.Utf8

namespace PhpAudit.Regex

inductive Direction where
  | forward
  | backward
deriving DecidableEq, Inhabited, Repr

def stateSize : Nat := 32

/-- The size of a byte range among the successors of a state. -/
def rangeSize : Nat := 8

/-- The size of a way out of a branching state. -/
def branchSize : Nat := 4

/-! ### Sets -/

/-- A state by its successors: for each byte range, the number of the next state. -/
abbrev Successors := List ((Nat × Nat) × Nat)

/-- Rows that start with the same byte range stand together, under that range. -/
def groupByHead (rows : List Utf8.ByteRanges) : List ((Nat × Nat) × List Utf8.ByteRanges) :=
  rows.foldr (fun row groups =>
    match row with
    | [] => groups
    | head :: tail =>
      match groups with
      | (other, tails) :: rest =>
        if other == head then (head, tail :: tails) :: rest else (head, [tail]) :: groups
      | [] => [(head, [tail])]) []

/--
The states that read rows of at most `length` bytes forwards, added to `states`, and the number of
the first of them. Equal states are shared; the number 0 is the end.
-/
def share : (length : Nat) → List Utf8.ByteRanges → List Successors → Nat × List Successors
  | 0, _, states => (0, states)
  | length + 1, rows, states =>
    match groupByHead rows with
    | [] => (0, states)
    | groups =>
      let (successors, states) := groups.foldl (fun (successors, states) (range, tails) =>
        let (next, states) := share length tails states
        (successors ++ [(range, next)], states)) (([] : Successors), states)
      match states.idxOf? successors with
      | some index => (states.length - index, states)
      | none => (states.length + 1, successors :: states)

/-- The number of byte ranges on the ways through rows that part where they first differ. -/
def countWays : (length : Nat) → List Utf8.ByteRanges → Nat
  | 0, _ => 0
  | length + 1, rows =>
    (groupByHead rows).foldl (fun total (_, tails) => total + 1 + countWays length tails) 0

/-- The longest form of a character, in bytes. -/
def longestForm : Nat := 4

/-- The size of what reads one character of a set. -/
def setSize (direction : Direction) (set : CodeSet) : Nat :=
  let isAscii := set.ranges.all fun (_, last) => last < 0x80
  match set.only? with
  | some code => stateSize * (Utf8.encode code).length
  | none =>
    if isAscii then
      2 * stateSize + rangeSize * set.ranges.length
    else
      let rows := Utf8.byteRanges set
      match direction with
      | .forward =>
        let states := (share longestForm rows []).2
        states.foldl (fun total state => total + stateSize + rangeSize * state.length) stateSize
      | .backward =>
        2 * stateSize + stateSize * countWays longestForm rows + branchSize * rows.length

/-! ### Nodes -/

/-- A branching state with two ways out. -/
def forkSize : Nat := stateSize + 2 * branchSize

/-- The size of a repetition, where what is repeated has a size. -/
def timesSize (isConsuming : Bool) (inner least : Nat) : Option Nat → Nat
  | none =>
    if least == 0 then
      if isConsuming then forkSize + inner else 2 * forkSize + stateSize + inner
    else
      least * inner + forkSize
  | some most =>
    let start := if least == 0 then stateSize else least * inner
    if least == 0 && most == 1 then forkSize + stateSize + inner
    else if least == most then start
    else start + stateSize + (most - least) * (forkSize + inner)

/-- The size of a node's part of an automaton. -/
def Node.size (direction : Direction) : Node → Nat
  | empty => stateSize
  | oneOf set => setSize direction set
  | look _ => stateSize
  | seq first second => first.size direction + second.size direction
  | alt first second =>
    -- Nested alternatives branch at one state and meet in one.
    let shared (node : Node) (size : Nat) : Nat := match node with
      | alt _ _ => size - 2 * stateSize
      | _ => size + branchSize
    2 * stateSize + shared first (first.size direction) + shared second (second.size direction)
  | iterate inner least most =>
    timesSize inner.isConsuming (inner.size direction) least most
  | group inner =>
    match direction with
    | .forward => 2 * stateSize + inner.size direction
    | .backward => inner.size direction

/-- The size of the states that search for a match from every position. -/
def searchSize : Nat := 4 * stateSize + 2 * rangeSize

/-- The size of a whole automaton; forwards, the whole match is a group. -/
def automatonSize (direction : Direction) (root : Node) : Nat :=
  searchSize + (Node.group root).size direction

/-- The largest automaton that is accepted: ten mebibytes. -/
def sizeLimit : Nat := 10 * 1024 * 1024

/-- Whether both automata are small enough. -/
def fits (root : Node) : Bool :=
  automatonSize .forward root ≤ sizeLimit && automatonSize .backward root ≤ sizeLimit

end PhpAudit.Regex
