/-
This file defines sets of code points. A set is kept as its ranges, in increasing order and apart
from each other, so that two equal sets have the same ranges.
-/

namespace PhpAudit

/-- A set of code points, given by ranges whose ends belong to it. -/
structure CodeSet where
  ranges : List (Nat × Nat)
deriving DecidableEq, Inhabited, Repr

namespace CodeSet

def empty : CodeSet := ⟨[]⟩

def lastCode : Nat := 0x10FFFF

/-- All code points. -/
def all : CodeSet := ⟨[(0, lastCode)]⟩

def single (code : Nat) : CodeSet := ⟨[(code, code)]⟩

def contains (set : CodeSet) (code : Nat) : Bool :=
  set.ranges.any fun (first, last) => first ≤ code && code ≤ last

def isEmpty (set : CodeSet) : Bool :=
  set.ranges.isEmpty

/-- The only member, if there is just one. -/
def only? (set : CodeSet) : Option Nat :=
  match set.ranges with
  | [(first, last)] => if first == last then some first else none
  | _ => none

/-! ### Building sets -/

/-- Puts a range before others that start no earlier, and joins it with those it touches. -/
def attach : Nat × Nat → List (Nat × Nat) → List (Nat × Nat)
  | range, [] => [range]
  | (first, last), (nextFirst, nextLast) :: rest =>
    if nextFirst ≤ last + 1 then attach (first, max last nextLast) rest
    else (first, last) :: (nextFirst, nextLast) :: rest

/-- The union of ranges in any order. -/
def ofRanges (ranges : List (Nat × Nat)) : CodeSet :=
  ⟨(ranges.mergeSort fun first second => first.1 ≤ second.1).foldr attach []⟩

def union (first second : CodeSet) : CodeSet :=
  ofRanges (first.ranges ++ second.ranges)

def unions (sets : List CodeSet) : CodeSet :=
  ofRanges (sets.flatMap ranges)

/-- The ranges from `next` on that lie between the given ones. -/
def gaps : (next : Nat) → List (Nat × Nat) → List (Nat × Nat)
  | next, [] => if next ≤ lastCode then [(next, lastCode)] else []
  | next, (first, last) :: rest =>
    if next < first then (next, first - 1) :: gaps (last + 1) rest else gaps (last + 1) rest

def complement (set : CodeSet) : CodeSet :=
  ⟨gaps 0 set.ranges⟩

def inter (first second : CodeSet) : CodeSet :=
  (first.complement.union second.complement).complement

def difference (first second : CodeSet) : CodeSet :=
  first.inter second.complement

def symmetricDifference (first second : CodeSet) : CodeSet :=
  (first.difference second).union (second.difference first)

/-! ### Membership -/

@[simp]
theorem contains_empty (code : Nat) : empty.contains code = false :=
  rfl

/-- Joining ranges that touch keeps the members. -/
theorem contains_attach (range : Nat × Nat) (ranges : List (Nat × Nat)) (code : Nat)
    (ordered : range.1 ≤ range.2) (sorted : ∀ other ∈ ranges, range.1 ≤ other.1)
    (proper : ∀ other ∈ ranges, other.1 ≤ other.2) :
    contains ⟨attach range ranges⟩ code =
      ((range.1 ≤ code && code ≤ range.2) || contains ⟨ranges⟩ code) := by
  induction ranges generalizing range with
  | nil => simp [attach, contains]
  | cons next rest ih =>
    obtain ⟨first, last⟩ := range
    obtain ⟨nextFirst, nextLast⟩ := next
    have later : first ≤ nextFirst := sorted _ (List.mem_cons_self ..)
    have nextOrdered : nextFirst ≤ nextLast := proper _ (List.mem_cons_self ..)
    unfold attach
    split
    · have joined := ih (first, max last nextLast) (by simp; omega)
        (fun other member => sorted other (List.mem_cons_of_mem _ member))
        (fun other member => proper other (List.mem_cons_of_mem _ member))
      rw [joined, Bool.eq_iff_iff]
      simp only [contains, List.any_cons, Bool.or_eq_true, Bool.and_eq_true, decide_eq_true_eq]
      constructor
      · rintro (inside | inside)
        · by_cases early : code ≤ last
          · exact .inl ⟨inside.1, early⟩
          · exact .inr (.inl (by omega))
        · exact .inr (.inr inside)
      · rintro (inside | inside | inside)
        · exact .inl (by omega)
        · exact .inl (by omega)
        · exact .inr inside
    · simp [contains]

end CodeSet

end PhpAudit
