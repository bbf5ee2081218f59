import RuleNet.Proofs.Engine.Reference
import RuleNet.Proofs.Rule.Satisfiability

/-!
# The facts that a pattern looks at

A pattern tests a fact only if its name may match: the name is the one of the
condition, or the condition is a leaf condition with a wildcard name. Groups and
leaves decide about names in their tests again, and not in the same way; the two
decisions agree.

* `activate_exact`: the activations are those of testing every fact.
* `isCandidate_iff`: no choice by name alone could leave out more facts.
-/

namespace RuleNet.Engine

open Memory (Fact)
open Rule (Bindings Condition)
open Rule.Condition (Binds InOrder Satisfies)
open Settings (Config)

variable {config : Config} {condition : Condition} {fact : Fact}

/-! ## Testing every fact -/

/-- The activations when every fact is tested, whatever its name: a fact that passes
is one, with what the test has bound. -/
def tested (config : Config) (condition : Condition) (facts : List Placed) : List Token :=
  facts.filterMap fun placed =>
    match condition.test config.isWildcard placed.fact [] with
    | (true, bound) => some (Token.single placed bound)
    | (false, _) => none

/-- The activations that facts are meant to have, in the order of the facts: a fact
that satisfies the condition has one, with this fact alone and the leaves that it
binds, and any other fact has none. -/
inductive Activated (config : Config) (condition : Condition) : List Placed → List Token → Prop
  | nil : Activated config condition [] []
  | cons {placed : Placed} {facts : List Placed} {tokens : List Token} {bound : Bindings} :
      Binds config.isWildcard condition placed.fact bound →
      Activated config condition facts tokens →
      Activated config condition (placed :: facts) (⟨[placed], bound⟩ :: tokens)
  | skip {placed : Placed} {facts : List Placed} {tokens : List Token} :
      ¬ Satisfies config.isWildcard condition placed.fact →
      Activated config condition facts tokens →
      Activated config condition (placed :: facts) tokens

/-- Collecting from nothing on, the test finds what the condition matches. -/
theorem tested_eq_matching (config : Config) (condition : Condition) (facts : List Placed) :
    tested config condition facts = matching config condition facts := by
  refine List.filterMap_congr fun placed _ => ?_
  rw [Condition.test_eq]
  cases condition.match? config.isWildcard placed.fact <;> rfl

theorem activated_matching (config : Config) (condition : Condition) (facts : List Placed) :
    Activated config condition facts (matching config condition facts) := by
  induction facts with
  | nil => exact .nil
  | cons placed rest ih =>
    rw [matching, List.filterMap_cons]
    cases found : condition.match? config.isWildcard placed.fact with
    | none => exact .skip (Condition.not_satisfies_iff.mpr found) ih
    | some bound => exact .cons (Condition.match?_eq_some_iff.mp found) ih

/-! ## Candidates -/

theorem isCandidate_of_satisfies (satisfied : Satisfies config.isWildcard condition fact) :
    isCandidate config condition fact = true := by
  obtain ⟨bound, found⟩ := Option.isSome_iff_exists.mp (Condition.isSome_match?_iff.mpr satisfied)
  exact isCandidate_of_match? found

/-- A leaf condition with a wildcard name is satisfied by leaves of every name. -/
theorem exists_satisfies_named (single : condition.isGroup = false)
    (wild : config.isWildcard condition.name = true) (ordered : condition.InOrder)
    (name : String) : ∃ fact : Fact, fact.name = name ∧
      Satisfies config.isWildcard condition fact := by
  obtain ⟨value, accepted⟩ := Condition.exists_accepted_iff.mpr ordered
  refine ⟨.leaf 0 name value, rfl, Condition.isSome_match?_iff.mp ?_⟩
  rw [Condition.match?_leaf single, Condition.acceptsName_eq_true.mpr (.inl wild), accepted]
  rfl

/-- If the ranges of the condition are in order, a fact is a candidate exactly when
some fact of its name satisfies the condition. -/
theorem isCandidate_iff (ordered : ∀ leaf ∈ condition.leaves, InOrder leaf) :
    isCandidate config condition fact = true ↔
      ∃ other : Fact, other.name = fact.name ∧ Satisfies config.isWildcard condition other := by
  constructor
  · intro candidate
    rw [isCandidate, Bool.or_eq_true, Bool.and_eq_true, Bool.not_eq_true', beq_iff_eq] at candidate
    rcases candidate with ⟨single, wild⟩ | named
    · rw [Condition.leaves_of_not_isGroup single] at ordered
      exact exists_satisfies_named single wild (ordered condition List.mem_cons_self) fact.name
    · refine ⟨condition.sample, ?_, Condition.satisfies_sample ordered⟩
      rw [named]
      cases condition <;> rfl
  · rintro ⟨other, named, satisfied⟩
    have candidate := isCandidate_of_satisfies satisfied
    rw [isCandidate, named] at candidate
    exact candidate

/-- For every condition, all settings and any facts, the activations of a pattern are
those of testing every fact, cut to the limit. These are the ones that the facts are
meant to have; and whatever passes the test, whatever was bound before, is a candidate
by its name. -/
theorem activate_exact (config : Config) (condition : Condition) (facts : List Placed) :
    activate config condition facts =
      (tested config condition facts).take config.activationLimit.toNat ∧
    Activated config condition facts (tested config condition facts) ∧
    ∀ fact bindings, (condition.test config.isWildcard fact bindings).1 = true →
      isCandidate config condition fact = true := by
  rw [tested_eq_matching]
  refine ⟨activate_eq_take config condition facts, activated_matching config condition facts, ?_⟩
  intro fact bindings passed
  rcases Condition.test_decides config.isWildcard condition fact with
    ⟨satisfied, -⟩ | ⟨-, fails⟩
  · exact isCandidate_of_satisfies satisfied
  · rw [fails] at passed
    cases passed

/-- A wildcard leaf takes leaves of other names, and no group of its own name. The
limit leaves the last one out. -/
theorem activate_exact_wildcard :
    let config : Config := { maxActivations := some 1 }
    let condition := Condition.int "_" 3 3
    let facts := place [.leaf 1 "hp" (.int 4), .leaf 2 "gold" (.int 3),
      .group "_" [.leaf 3 "gold" (.int 3)], .leaf 4 "mana" (.int 3)]
    let shown := List.map fun token : Token => (token.facts.map Placed.position, token.bindings)
    shown (tested config condition facts) = [([1], [2]), ([3], [4])] ∧
      activate config condition facts = (tested config condition facts).take 1 ∧
      (condition.test config.isWildcard (.leaf 4 "mana" (.int 3)) []).1 = true ∧
      isCandidate config condition (.leaf 4 "mana" (.int 3)) = true := by
  intro config condition facts shown
  obtain ⟨same, -, candidates⟩ := activate_exact config condition facts
  exact ⟨by decide, same, by decide, candidates (.leaf 4 "mana" (.int 3)) [] (by decide)⟩

end RuleNet.Engine
