import RuleNet.Proofs.Engine.Propagation
import RuleNet.Proofs.Network.Unfolding

/-!
# What a condition expression means

The meaning of an expression needs no network: a pattern means the facts that
match it, an operator combines the meanings of its operands, and every list is
cut to the activation limit. `reference` computes it by recursion over the
element, `Plan.tokens` by recursion over the plan; they agree
(`reference_eq_tokens`).

The limit is all that separates the patterns and joins of the engine from their
plain meanings (`activate_eq_take`, `combine_eq_take`).
-/

namespace RuleNet.Engine

open Markup (Element)
open Memory (Fact)
open Network (Plan WellFormed forall₂_of_mem map_eq_map_of_forall₂)
open Rule (Condition Operator)
open Settings (Config)

/-! ## Patterns -/

/-- The facts that match the condition with what they bind, in memory order. -/
def matching (config : Config) (condition : Condition) (facts : List Placed) : List Token :=
  facts.filterMap fun placed =>
    (condition.match? config.isWildcard placed.fact).map (Token.single placed)

theorem isCandidate_of_match? {config : Config} {condition : Condition} {fact : Fact}
    {bound : Rule.Bindings} (found : condition.match? config.isWildcard fact = some bound) :
    isCandidate config condition fact = true := by
  rw [isCandidate, Bool.or_eq_true, Bool.and_eq_true, Bool.not_eq_true', beq_iff_eq]
  exact Condition.name_of_match? found

/-- Looking at the names first leaves no match out. -/
theorem activate_eq_take (config : Config) (condition : Condition) (facts : List Placed) :
    activate config condition facts =
      (matching config condition facts).take config.activationLimit.toNat := by
  rw [activate, matching, List.filterMap_filter]
  congr 2
  funext placed
  split
  · rfl
  · next other =>
    cases found : condition.match? config.isWildcard placed.fact with
    | none => rfl
    | some bound => exact absurd (isCandidate_of_match? found) other

/-! ## Operators -/

/-- Every left activation merged with every right one, row by row. -/
def pairs (left right : List Token) : List Token :=
  left.flatMap fun token => right.map token.merge

/-- What an operator makes of its operands' activations, without a limit. -/
def joined (left right : List Token) : Operator → List Token
  | .and => pairs left right
  | .or => if left.isEmpty then right else if right.isEmpty then left else pairs left right
  | .not => if left.isEmpty then [Token.empty] else []

theorem combine_eq_take (operator : Operator) (inputs : List (List Token)) (limit : Nat) :
    combine operator inputs limit =
      (joined (inputs[0]?.getD []) (inputs[1]?.getD []) operator).take limit := by
  cases operator with
  | and => exact cross_eq_take limit _ _
  | or =>
    simp only [combine, joined]
    split
    · rfl
    split
    · rfl
    · exact cross_eq_take limit _ _
  | not =>
    simp only [combine, joined]
    cases (inputs[0]?.getD []).isEmpty with
    | false => exact List.take_nil.symm
    | true =>
      cases limit with
      | zero => rfl
      | succ limit => simp

/-! ## Expressions -/

mutual
/-- The activations that a condition expression stands for. An operator without
an operand takes nothing in its place, and what defines no condition matches
nothing. -/
def reference (config : Config) (facts : List Placed) : Element → List Token
  | ⟨name, attributes, text, children⟩ =>
      let tokens := match Operator.ofTag? name with
        | some operator =>
            let operands := referenceAll config facts children
            joined (operands[0]?.getD []) (operands[1]?.getD []) operator
        | none =>
            match Condition.ofElement ⟨name, attributes, text, children⟩ with
            | .ok condition => matching config condition facts
            | .error _ => []
      tokens.take config.activationLimit.toNat

/-- The activations that several expressions stand for. -/
def referenceAll (config : Config) (facts : List Placed) : List Element → List (List Token)
  | [] => []
  | element :: rest => reference config facts element :: referenceAll config facts rest
end

theorem referenceAll_eq_map (config : Config) (facts : List Placed) (elements : List Element) :
    referenceAll config facts elements = elements.map (reference config facts) := by
  induction elements with
  | nil => rfl
  | cons element rest ih => rw [referenceAll, ih, List.map_cons]

mutual
/-- The activations that a plan stands for. -/
def tokensOf (config : Config) (facts : List Placed) : Plan → List Token
  | .pattern _ condition => activate config condition facts
  | .join _ operator operands =>
      combine operator (tokensOfAll config facts operands) config.activationLimit.toNat

/-- The activations that several plans stand for. -/
def tokensOfAll (config : Config) (facts : List Placed) : List Plan → List (List Token)
  | [] => []
  | plan :: rest => tokensOf config facts plan :: tokensOfAll config facts rest
end

theorem tokensOfAll_eq_map (config : Config) (facts : List Placed) (plans : List Plan) :
    tokensOfAll config facts plans = plans.map (tokensOf config facts) := by
  induction plans with
  | nil => rfl
  | cons plan rest ih => rw [tokensOfAll, ih, List.map_cons]

/-- A plan stands for what its expression stands for. -/
theorem reference_eq_tokens (config : Config) (facts : List Placed) {element : Element}
    {plan : Plan} (planned : Plan.ofElement element = .ok plan) :
    reference config facts element = tokensOf config facts plan := by
  induction element using Element.induction generalizing plan with
  | step element ih =>
    obtain ⟨name, attributes, text, children⟩ := element
    rw [reference]
    rcases Plan.ofElement_inv planned with
      ⟨condition, tag, built, rfl⟩ | ⟨operator, operands, tag, -, all, rfl⟩
    · simp only [show Operator.ofTag? name = none from tag, built]
      rw [tokensOf, activate_eq_take]
    · have operandTokens : referenceAll config facts children =
          tokensOfAll config facts operands := by
        rw [referenceAll_eq_map, tokensOfAll_eq_map]
        exact map_eq_map_of_forall₂ (forall₂_of_mem all fun child member _ _ planned =>
          ih child member planned)
      simp only [show Operator.ofTag? name = some operator from tag]
      rw [tokensOf, combine_eq_take, operandTokens]

/-! ## Nodes -/

/-- A run gives a node what its plan stands for. -/
theorem activationsOf_unfolds {network : Network} (wf : WellFormed network) (facts : List Fact)
    {id : Nat} {plan : Plan} (unfolds : network.Unfolds id plan) :
    (Report.ofRun network facts).activationsOf id = tokensOf network.config (place facts) plan := by
  induction unfolds with
  | pattern found kind =>
    rw [Report.activationsOf, Report.ofRun, run_equation wf facts found, pulled, kind, tokensOf]
    rfl
  | @join id node key operator operands plans found kind length each ih =>
    have inputs : operands.map (fun operand => (run network facts)[operand]?.getD []) =
        tokensOfAll network.config (place facts) plans := by
      rw [tokensOfAll_eq_map]
      exact map_eq_map_of_forall₂ (List.forall₂_iff_zip.mpr ⟨length, fun member => ih _ _ member⟩)
    rw [Report.activationsOf, Report.ofRun, run_equation wf facts found, pulled, kind, tokensOf,
      ← inputs]
    rfl

end RuleNet.Engine
