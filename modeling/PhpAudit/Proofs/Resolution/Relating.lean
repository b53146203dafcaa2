/-
This file compares ways of resolving values. The rules that expand a value leave its parts to the
resolver that they are given, and put its answers together by sequencing alone. Two resolvers may
compute in different ways, one with a memo and one without. If a relation between their computations
respects sequencing and holds on every class and value, it holds between the expansions as well.
-/

import PhpAudit.Resolution

namespace PhpAudit.Resolution

/-- A relation between two kinds of computations that respects sequencing. -/
structure Sequential {First Second : Type → Type} [Monad First] [Monad Second]
    (related : (Answer : Type) → First Answer → Second Answer → Prop) : Prop where
  pure : ∀ {Answer : Type} (answer : Answer), related Answer (pure answer) (pure answer)
  bind : ∀ {Answer Other : Type} {first : First Answer} {second : Second Answer}
    {firstRest : Answer → First Other} {secondRest : Answer → Second Other},
    related Answer first second →
    (∀ answer, related Other (firstRest answer) (secondRest answer)) →
    related Other (first >>= firstRest) (second >>= secondRest)

namespace Sequential

variable {First Second : Type → Type} [Monad First] [Monad Second]
  {related : (Answer : Type) → First Answer → Second Answer → Prop}
  (sequential : Sequential related)

include sequential

theorem gather {Source : Type} {step : Source → First Names} {other : Source → Second Names}
    (sources : List Source)
    (steps : ∀ source ∈ sources, related Names (step source) (other source)) :
    related Names (gather step sources) (gather other sources) := by
  induction sources with
  | nil => exact sequential.pure _
  | cons source rest inductionHypothesis =>
    unfold Resolution.gather
    refine sequential.bind (steps source List.mem_cons_self) fun names => ?_
    refine sequential.bind (inductionHypothesis fun source listed => ?_)
      fun others => sequential.pure _
    exact steps source (List.mem_cons_of_mem _ listed)

variable [LawfulMonad First] [LawfulMonad Second]

theorem map {Answer Other : Type} {first : First Answer} {second : Second Answer}
    (image : Answer → Other) (both : related Answer first second) :
    related Other (image <$> first) (image <$> second) := by
  rw [← bind_pure_comp, ← bind_pure_comp]
  exact sequential.bind both fun answer => sequential.pure (image answer)

variable {index : Index} {first : String → TypeValue → First Names}
  {second : String → TypeValue → Second Names}
  (resolves : ∀ owner value, related Names (first owner value) (second owner value))

include resolves

theorem ofSet (owner : String) (types : TypeSet) :
    related Names (ofSet first owner types) (ofSet second owner types) :=
  sequential.map settleEmptyArray (sequential.gather types.members fun value _ =>
    resolves owner value)

theorem ofMethod (instances : List String) (method : String) :
    related Names (ofMethod index first instances method)
      (ofMethod index second instances method) := by
  refine sequential.gather instances fun name _ => ?_
  split
  · exact sequential.pure _
  · exact sequential.bind (sequential.ofSet resolves name _) fun names => sequential.pure _

theorem ofElement (name : String) :
    related Names (ofElement index first name) (ofElement index second name) := by
  unfold Resolution.ofElement
  split
  · exact sequential.pure _
  split
  · exact sequential.pure _
  split
  · split
    · exact sequential.ofSet resolves name _
    · exact sequential.pure _
  · exact sequential.pure _

theorem ofElementAt (owner key name : String) :
    related Names (ofElementAt index first owner key name)
      (ofElementAt index second owner key name) := by
  unfold Resolution.ofElementAt
  split
  · split
    · exact sequential.ofSet resolves owner _
    · exact sequential.pure _
  · exact sequential.ofElement resolves name

theorem ofProperty (owner property name : String) :
    related Names (ofProperty index first owner property name)
      (ofProperty index second owner property name) := by
  unfold Resolution.ofProperty
  split
  · exact sequential.ofSet resolves owner _
  · split
    · exact sequential.ofSet resolves name _
    · exact sequential.pure _

/-- Expansions by related resolvers are related. -/
theorem expand (owner : String) (value : TypeValue) :
    related Names (expand index first owner value) (expand index second owner value) := by
  cases value with
  | concrete name => exact sequential.pure _
  | global name | constant name | functionCall name | classConstant called constant
  | baseParam position called method =>
    simp only [Resolution.expand]
    split
    · exact sequential.ofSet resolves owner _
    · exact sequential.pure _
  | arrayOf element =>
    exact sequential.bind (resolves owner element) fun names => sequential.pure _
  | elementOf array =>
    exact sequential.bind (resolves owner array) fun names =>
      sequential.gather names.toList fun name _ => sequential.ofElement resolves name
  | elementAt array key =>
    exact sequential.bind (resolves owner array) fun names =>
      sequential.gather names.toList fun name _ => sequential.ofElementAt resolves owner key name
  | methodCall object method =>
    refine sequential.bind (resolves owner object) fun instances => ?_
    refine sequential.bind (sequential.ofMethod resolves instances.toList method) fun names => ?_
    split
    · exact sequential.ofMethod resolves instances.toList "__call"
    · exact sequential.pure _
  | property object property =>
    exact sequential.bind (resolves owner object) fun instances =>
      sequential.gather instances.toList fun name _ =>
        sequential.ofProperty resolves owner property name
  | staticCall called method =>
    simp only [Resolution.expand]
    split
    · exact sequential.bind (sequential.ofSet resolves called _) fun names => sequential.pure _
    · split
      · exact sequential.ofSet resolves called _
      · exact sequential.pure _
  | staticProperty called property =>
    simp only [Resolution.expand]
    split
    · exact sequential.bind (sequential.ofSet resolves called _) fun names => sequential.pure _
    · exact sequential.pure _

end Sequential

end PhpAudit.Resolution
