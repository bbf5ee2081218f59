import RuleNet.Proofs.Engine.Truth
import RuleNet.Proofs.Rule.Satisfaction

/-!
# More facts, more matches

Facts that are inserted into a memory can change every activation: another child
of a group may be the first to match, a disjunction may pair what it passed on,
and the limit may cut off what was there. Activity is all that is sure to stay,
and only where no negation is below: a formula without negations that is true
stays true when more conditions are met.

* `Formula.eval_of_isPositive`: formulas without negations are monotone.
* `isActive_enlarged`: an active node without negations stays active.
* `reachable_enlarged`: the same for every network that a builder can reach, and
  for the rules that apply.
-/

namespace RuleNet.Network

open Rule (Condition)

/-! ## Formulas without negations -/

/-- There is no negation in the formula. -/
def Formula.isPositive : Formula → Bool
  | atom _ => true
  | and left right => left.isPositive && right.isPositive
  | or left right => left.isPositive && right.isPositive
  | not _ => false

/-- There is no negation in what the node unfolds to. -/
def isNegationFree (network : Network) (id : NodeId) : Bool :=
  (network.formula? id).all Formula.isPositive

/-- A formula without negations stays true when more conditions are true. -/
theorem Formula.eval_of_isPositive {truth more : Condition → Bool}
    (each : ∀ condition, truth condition = true → more condition = true) {formula : Formula}
    (positive : formula.isPositive = true) (holds : formula.eval truth = true) :
    formula.eval more = true := by
  induction formula with
  | atom condition => exact each condition holds
  | and left right ihLeft ihRight =>
    rw [isPositive, Bool.and_eq_true] at positive
    rw [eval, Bool.and_eq_true] at holds ⊢
    exact ⟨ihLeft positive.1 holds.1, ihRight positive.2 holds.2⟩
  | or left right ihLeft ihRight =>
    rw [isPositive, Bool.and_eq_true] at positive
    rw [eval, Bool.or_eq_true] at holds ⊢
    exact holds.imp (ihLeft positive.1) (ihRight positive.2)
  | not operand => cases positive

end RuleNet.Network

namespace RuleNet.Engine

open Markup (Element)
open Memory (Enlarged Fact)
open Network (Builder Reachable WellFormed)
open Rule (Condition)
open Settings (Config)

/-! ## Nodes -/

/-- A condition that is met stays met. -/
theorem isMet_enlarged (config : Config) {facts more : List Fact} (enlarged : Enlarged facts more)
    {condition : Condition} (met : isMet config facts condition = true) :
    isMet config more condition = true := by
  have before : Condition.Met config.isWildcard condition facts := List.any_eq_true.mp met
  exact List.any_eq_true.mpr (before.enlarged enlarged)

/-- With room for one activation, an active node without negations stays active. -/
theorem isActive_enlarged {network : Network} (wf : WellFormed network)
    (positive : 1 ≤ network.config.activationLimit) {facts more : List Fact}
    (enlarged : Enlarged facts more) {id : Nat} (free : network.isNegationFree id = true)
    (active : (Report.ofRun network facts).isActive id = true) :
    (Report.ofRun network more).isActive id = true := by
  by_cases inner : network.IsInner id
  · obtain ⟨formula, known, truth⟩ := exists_formula_isActive wf positive facts inner
    obtain ⟨formula', known', truth'⟩ := exists_formula_isActive wf positive more inner
    cases known.symm.trans known'
    rw [Network.isNegationFree, known, Option.all_some] at free
    rw [truth] at active
    rw [truth']
    exact formula.eval_of_isPositive (fun _ => isMet_enlarged network.config enlarged) free active
  · rw [isActive_of_not_isInner wf facts inner] at active
    cases active

/-! ## Networks that a builder can reach -/

theorem mem_ruleMatches {report : Report} {rule : Network.AttachedRule} :
    rule ∈ report.ruleMatches.map RuleMatch.rule ↔
      rule ∈ report.network.rules ∧ report.isActive rule.terminal = true := by
  simp [Report.ruleMatches]

/-- Whatever calls a builder has seen, and with room for one activation at least:
when facts are inserted into a memory, at the top level or into groups at any
depth, every active node that unfolds to a formula without negations stays
active, and every rule attached to such a node that applied still applies. -/
theorem reachable_enlarged {config : Config} {builder : Builder}
    (reachable : Reachable config builder) (positive : 1 ≤ config.activationLimit)
    {facts more : List Fact} (enlarged : Enlarged facts more) :
    let network := builder.network
    let before := Report.ofRun network facts
    let after := Report.ofRun network more
    (∀ id, network.isNegationFree id = true → before.isActive id = true →
      after.isActive id = true) ∧
    ∀ rule ∈ before.ruleMatches.map RuleMatch.rule,
      network.isNegationFree rule.terminal = true →
        rule ∈ after.ruleMatches.map RuleMatch.rule := by
  intro network before after
  have room : 1 ≤ network.config.activationLimit := by
    rw [show network.config = config from reachable.config_eq]
    exact positive
  have active : ∀ id, network.isNegationFree id = true → before.isActive id = true →
      after.isActive id = true :=
    fun _ => isActive_enlarged reachable.wellFormed room enlarged
  refine ⟨active, fun rule applied free => ?_⟩
  obtain ⟨attached, was⟩ := mem_ruleMatches.mp applied
  exact mem_ruleMatches.mpr ⟨attached, active rule.terminal free was⟩

/-- An axe is put before the axe in a room, so the activation changes, and a bow
makes the other operand active. The negation of the bow stops being active. -/
theorem reachable_enlarged_room :
    let axe : Element := { name := "weapon", attributes := [("type", "string")], text := "axe" }
    let bow : Element := { name := "bow" }
    let either : Element :=
      { name := "or", children := [{ name := "room", children := [axe] }, bow] }
    let builder := ((Builder.ofConfig { maxActivations := some 1 }).offer
      (.ofCondition "armed" either)).offer
        (.ofCondition "unarmed" { name := "not", children := [bow] })
    let facts : List Fact := [.group "room" [.leaf 1 "weapon" (.string "axe")]]
    let more : List Fact :=
      [.group "room" [.leaf 2 "weapon" (.string "axe"), .leaf 1 "weapon" (.string "axe")],
        .group "bow" []]
    let before := Report.ofRun builder.network facts
    let after := Report.ofRun builder.network more
    before.matchedNames = ["armed", "unarmed"] ∧ after.matchedNames = ["armed"] ∧
      (before.activationsOf 3).map Token.bindings = [[1]] ∧
      (after.activationsOf 3).map Token.bindings = [[2]] ∧
      builder.network.isNegationFree 3 = true ∧ builder.network.isNegationFree 4 = false ∧
      Enlarged facts more ∧ after.isActive 3 = true := by
  intro axe bow either builder facts more before after
  have reachable : Reachable { maxActivations := some 1 } builder := .offer _ (.offer _ .start)
  have inside : Enlarged facts [.group "room"
      [.leaf 2 "weapon" (.string "axe"), .leaf 1 "weapon" (.string "axe")]] :=
    .single (.inside [] [] "room" (.here (List.sublist_cons_self _ _)))
  have enlarged : Enlarged facts more := inside.tail (.here (List.sublist_append_left _ _))
  obtain ⟨active, -⟩ := reachable_enlarged reachable (by decide) enlarged
  exact ⟨by decide, by decide, by decide, by decide, by decide, by decide, enlarged,
    active 3 (by decide) (by decide)⟩

end RuleNet.Engine
