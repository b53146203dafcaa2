/-
This file puts nodes together. Each function here gives a node that matches what its parts say, in
the simplest form: nothing is repeated just once, and alternatives of one character are a set.
-/

import PhpAudit.Pattern.Regex.Basic

namespace PhpAudit.Regex.Node

/-- Whether every match is empty. -/
def isZeroWidth : Node → Bool
  | empty => true
  | oneOf _ => false
  | look _ => true
  | seq first second => first.isZeroWidth && second.isZeroWidth
  | alt first second => first.isZeroWidth && second.isZeroWidth
  | iterate inner _ most => most.isSome && inner.isZeroWidth
  | group inner => inner.isZeroWidth

/-- Whether no match is empty. -/
def isConsuming : Node → Bool
  | empty => false
  | oneOf set => !set.isEmpty
  | look _ => false
  | seq first second => first.isConsuming || second.isConsuming
  | alt first second => first.isConsuming && second.isConsuming
  | iterate inner least _ => 0 < least && inner.isConsuming
  | group inner => inner.isConsuming

/-! ### Sequences -/

def isEmpty : Node → Bool
  | empty => true
  | _ => false

/-- One node after the other. -/
def sequence (nodes : List Node) : Node :=
  match (nodes.filter (!·.isEmpty)).reverse with
  | [] => .empty
  | last :: rest => rest.foldl (fun node factor => .seq factor node) last

/-! ### Alternatives -/

/-- The alternatives of a node. -/
def alternatives : Node → List Node
  | alt first second => first.alternatives ++ second.alternatives
  | node => [node]

/-- The set of a node that matches one character of it. -/
def set? : Node → Option CodeSet
  | oneOf set => some set
  | _ => none

/-- Any of the nodes; there is at least one. -/
def choice (first : Node) (rest : List Node) : Node :=
  match rest with
  | [] => first
  | _ =>
    let each := (first :: rest).flatMap alternatives
    match each.mapM set? with
    | some sets => .oneOf (.unions sets)
    | none =>
      match each.reverse with
      | [] => .empty
      | last :: before => before.foldl (fun node other => .alt other node) last

/-! ### Repetitions -/

/-- A node so many times in a row; more than one empty match makes no difference. -/
def times (inner : Node) (least : Nat) (most : Option Nat) : Node :=
  let (least, most) :=
    if inner.isZeroWidth then (min least 1, some (min (most.getD 1) 1)) else (least, most)
  if most == some 0 then .empty
  else if least == 1 && most == some 1 then inner
  else .iterate inner least most

end PhpAudit.Regex.Node
