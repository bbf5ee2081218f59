import RuleNet.Rule.Definition
import RuleNet.Rule.Condition
import RuleNet.Rule.Key

/-!
# Plans

A condition expression is checked as a whole before any node is created. The
outcome is a plan: the expression with the key of every part and the condition
of every pattern. Everything below a tag that is no operator belongs to a
pattern, operators' tags included.
-/

namespace RuleNet.Network

open Markup (Element)
open Rule (Condition Key Operator RuleError)

/-- A condition expression that can be compiled. -/
inductive Plan where
  | pattern (key : Key) (condition : Condition)
  | join (key : Key) (operator : Operator) (operands : List Plan)
deriving Repr

namespace Plan

/-- The key of the planned expression. -/
def key : Plan → Key
  | pattern key _ => key
  | join key _ _ => key

mutual
/-- The plan for a condition expression. An operator's own operands are counted
before they are planned. -/
def ofElement : Element → Except RuleError Plan
  | ⟨name, attributes, text, children⟩ =>
      let key := Key.ofElement ⟨name, attributes, text, children⟩
      match Operator.ofTag? name with
      | none => (Condition.ofElement ⟨name, attributes, text, children⟩).map (pattern key)
      | some operator =>
          if children.length = operator.arity then
            (ofElements children).map (join key operator)
          else .error (.arity operator children.length)

/-- The plans for several expressions, or the first error among them. -/
def ofElements : List Element → Except RuleError (List Plan)
  | [] => .ok []
  | element :: rest => do
      let plan ← ofElement element
      let plans ← ofElements rest
      return plan :: plans
end

/-- The plan for a rule. Errors name the rule. -/
def ofRule (rule : Rule.Definition) : Except RuleError Plan :=
  (rule.condition.bind ofElement).mapError (RuleError.inRule rule.name)

/-! ## Induction -/

mutual
/-- What holds of patterns, and of a join whenever it holds of its operands, holds of every plan. -/
@[elab_as_elim]
theorem induction {motive : Plan → Prop}
    (onPattern : ∀ key condition, motive (pattern key condition))
    (onJoin : ∀ key operator operands,
      (∀ operand ∈ operands, motive operand) → motive (join key operator operands)) :
    ∀ plan, motive plan
  | pattern key condition => onPattern key condition
  | join key operator operands =>
      onJoin key operator operands (inductionAll onPattern onJoin operands)

/-- The same for every plan of a list. -/
theorem inductionAll {motive : Plan → Prop}
    (onPattern : ∀ key condition, motive (pattern key condition))
    (onJoin : ∀ key operator operands,
      (∀ operand ∈ operands, motive operand) → motive (join key operator operands)) :
    ∀ plans : List Plan, ∀ plan ∈ plans, motive plan
  | first :: rest, plan, member => by
      cases member with
      | head => exact induction onPattern onJoin first
      | tail _ later => exact inductionAll onPattern onJoin rest plan later
end

end Plan

end RuleNet.Network
