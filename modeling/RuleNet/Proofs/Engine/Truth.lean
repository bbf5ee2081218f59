import RuleNet.Proofs.Engine.Capping

/-!
# Activity is truth

Every node but the root stands for a Boolean formula over conditions: a pattern
for its condition, a join for its operator over the formulas of its operands
(`formula?`). A memory makes a condition true when one of its facts matches it.

The engine never computes truth values. It pairs tokens, passes them on and cuts
every list to the limit. All the same, as long as the limit leaves room for one
activation, a node has an activation exactly when its formula is true.

* `formula?_join`: the formula of a node unfolds to those of its operands.
* `isEmpty_joined`: whether an operator makes anything of two lists depends on
  which of them are empty, and in the classical way.
* `exists_formula_isActive`: every node but the root has a formula, and is
  active when it is true.
* `reachable_isActive_iff`: the same for every network that a builder can reach,
  and which rules apply.
-/

namespace RuleNet.Network

open Rule (Condition Key Operator)

/-! ## Formulas -/

/-- A Boolean formula over conditions. -/
inductive Formula where
  | atom (condition : Condition)
  | and (left right : Formula)
  | or (left right : Formula)
  | not (operand : Formula)
deriving Repr

namespace Formula

/-- The truth value of a formula, given those of the conditions. -/
def eval (truth : Condition → Bool) : Formula → Bool
  | atom condition => truth condition
  | and left right => left.eval truth && right.eval truth
  | or left right => left.eval truth || right.eval truth
  | not operand => !operand.eval truth

/-- An operator over the formulas of its operands, if there are as many as it takes. -/
def ofOperands? : Operator → List (Option Formula) → Option Formula
  | .and, [some left, some right] => some (and left right)
  | .or, [some left, some right] => some (or left right)
  | .not, [some operand] => some (not operand)
  | _, _ => none

end Formula

/-- The formula of a node, with operands unfolded up to the given depth. -/
def formulaWithin (network : Network) : Nat → NodeId → Option Formula
  | 0, _ => none
  | depth + 1, id =>
      match (network.node? id).map Node.kind with
      | some (.pattern _ condition) => some (.atom condition)
      | some (.join _ operator operands) =>
          Formula.ofOperands? operator (operands.map (network.formulaWithin depth))
      | _ => none

/-- The formula of a node. A join comes after its operands, so its position
bounds how deep they have to be unfolded. -/
def formula? (network : Network) (id : NodeId) : Option Formula :=
  network.formulaWithin (id + 1) id

section Unfolding

variable {network : Network} {id : Nat} {node : Node} {key : Key} {condition : Condition}
  {operator : Operator} {operands : List NodeId}

theorem formulaWithin_of_none (missing : network.node? id = none) (depth : Nat) :
    network.formulaWithin depth id = none := by
  cases depth with
  | zero => rfl
  | succ depth => rw [formulaWithin, missing, Option.map_none]

theorem formulaWithin_root (found : network.node? id = some node) (kind : node.kind = .root)
    (depth : Nat) : network.formulaWithin depth id = none := by
  cases depth with
  | zero => rfl
  | succ depth => rw [formulaWithin, found, Option.map_some, kind]

theorem formulaWithin_pattern (found : network.node? id = some node)
    (kind : node.kind = .pattern key condition) (depth : Nat) :
    network.formulaWithin (depth + 1) id = some (.atom condition) := by
  rw [formulaWithin, found, Option.map_some, kind]

theorem formulaWithin_join (found : network.node? id = some node)
    (kind : node.kind = .join key operator operands) (depth : Nat) :
    network.formulaWithin (depth + 1) id =
      Formula.ofOperands? operator (operands.map (network.formulaWithin depth)) := by
  rw [formulaWithin, found, Option.map_some, kind]

/-- Unfolding further than the position says changes nothing. -/
theorem formulaWithin_eq (wf : WellFormed network) {depth : Nat} (deep : id < depth) :
    network.formulaWithin depth id = network.formula? id := by
  induction id using Nat.strongRecOn generalizing depth with
  | ind id ih =>
    unfold formula?
    cases depth with
    | zero => exact absurd deep (Nat.not_lt_zero id)
    | succ depth =>
      cases found : network.node? id with
      | none => rw [formulaWithin_of_none found, formulaWithin_of_none found]
      | some node =>
        have reads := wf.reads found
        cases kind : node.kind with
        | root => rw [formulaWithin_root found kind, formulaWithin_root found kind]
        | pattern key condition =>
          rw [formulaWithin_pattern found kind, formulaWithin_pattern found kind]
        | join key operator operands =>
          rw [kind] at reads
          rw [formulaWithin_join found kind, formulaWithin_join found kind]
          congr 1
          refine List.map_congr_left fun operand member => ?_
          have before := (reads.2.2 operand member).2
          rw [ih operand before (Nat.lt_of_lt_of_le before (Nat.le_of_lt_succ deep)),
            ih operand before before]

/-- The formula of a join is its operator over the formulas of its operands. -/
theorem formula?_join (wf : WellFormed network) (found : network.node? id = some node)
    (kind : node.kind = .join key operator operands) :
    network.formula? id = Formula.ofOperands? operator (operands.map network.formula?) := by
  have reads := wf.reads found
  rw [kind] at reads
  rw [formula?, formulaWithin_join found kind]
  congr 1
  exact List.map_congr_left fun operand member =>
    formulaWithin_eq wf (reads.2.2 operand member).2

end Unfolding

/-- What is no node, or the root, has no formula. -/
theorem formula?_of_not_isInner {network : Network} (wf : WellFormed network) {id : Nat}
    (outside : ¬ network.IsInner id) : network.formula? id = none := by
  rw [formula?]
  cases found : network.node? id with
  | none => exact formulaWithin_of_none found _
  | some node => exact formulaWithin_root found (wf.kind_of_not_isInner found outside) _

end RuleNet.Network

namespace RuleNet.Engine

open Markup (Element)
open Memory (Fact)
open Network
open Rule (Condition Definition Key Operator)
open Settings (Config)

/-! ## When there is an activation -/

/-- Some fact at the top level of the memory matches the condition. -/
def isMet (config : Config) (facts : List Fact) (condition : Condition) : Bool :=
  facts.any fun fact => (condition.match? config.isWildcard fact).isSome

theorem map_fact_place (facts : List Fact) : (place facts).map Placed.fact = facts := by
  rw [place, List.map_map]
  exact List.zipIdx_map_fst 0 facts

/-- A pattern matches something exactly when its condition is met. -/
theorem isEmpty_matching (config : Config) (facts : List Fact) (condition : Condition) :
    (matching config condition (place facts)).isEmpty = !isMet config facts condition := by
  have every : ∀ placed : List Placed, (matching config condition placed).isEmpty =
      !isMet config (placed.map Placed.fact) condition := by
    intro placed
    induction placed with
    | nil => rfl
    | cons first rest ih =>
      unfold matching isMet at ih ⊢
      rw [List.filterMap_cons, List.map_cons, List.any_cons]
      cases condition.match? config.isWildcard first.fact with
      | none => exact ih
      | some bound => rfl
  have placed := every (place facts)
  rwa [map_fact_place] at placed

theorem isEmpty_pairs (left right : List Token) :
    (pairs left right).isEmpty = (left.isEmpty || right.isEmpty) := by
  cases left with
  | nil => rfl
  | cons token rest =>
    cases right with
    | nil => rw [pairs_nil]; rfl
    | cons other others => rfl

/-- Whether an operator makes anything of two lists depends only on which of
them are empty. -/
theorem isEmpty_joined (left right : List Token) (operator : Operator) :
    (joined left right operator).isEmpty =
      match operator with
      | .and => left.isEmpty || right.isEmpty
      | .or => left.isEmpty && right.isEmpty
      | .not => !left.isEmpty := by
  cases operator with
  | and => exact isEmpty_pairs left right
  | or =>
    unfold joined
    cases left with
    | nil => rfl
    | cons token rest =>
      cases right with
      | nil => rfl
      | cons other others => exact isEmpty_pairs _ _
  | not =>
    unfold joined
    cases left <;> rfl

/-! ## Nodes -/

section Nodes

variable {network : Network} {id : Nat} {node : Node} {key : Key} {condition : Condition}
  {operator : Operator} {operands : List NodeId}

theorem isActive_of_not_isInner (wf : WellFormed network) (facts : List Fact)
    (outside : ¬ network.IsInner id) : (Report.ofRun network facts).isActive id = false := by
  have nothing : (run network facts)[id]?.getD [] = [] := by
    cases found : network.node? id with
    | none =>
      have behind : network.size ≤ id := List.getElem?_eq_none_iff.mp found
      rw [List.getElem?_eq_none (by rwa [length_run wf]), Option.getD_none]
    | some node =>
      rw [run_equation wf facts found, pulled, wf.kind_of_not_isInner found outside]
      rfl
  rw [Report.isActive, Report.activationsOf, Report.ofRun, nothing]
  rfl

/-- The limit leaves an activation if there is any. -/
theorem isActive_eq (positive : 1 ≤ network.config.activationLimit) {facts : List Fact}
    {tokens : List Token} (cut : (Report.ofRun network facts).activationsOf id =
      tokens.take network.config.activationLimit.toNat) :
    (Report.ofRun network facts).isActive id = !tokens.isEmpty := by
  have room : 0 < network.config.activationLimit.toNat := UInt64.le_iff_toNat_le.mp positive
  rw [Report.isActive, cut, isEmpty_take room]

section Active

variable (wf : WellFormed network) (positive : 1 ≤ network.config.activationLimit)
  (facts : List Fact) (found : network.node? id = some node)
include wf positive found

theorem isActive_pattern (kind : node.kind = .pattern key condition) :
    (Report.ofRun network facts).isActive id = isMet network.config facts condition := by
  have cut : (Report.ofRun network facts).activationsOf id =
      (matching network.config condition (place facts)).take
        network.config.activationLimit.toNat := by
    rw [Report.activationsOf, Report.ofRun, run_equation wf facts found, pulled, kind]
    exact activate_eq_take _ _ _
  rw [isActive_eq positive cut, isEmpty_matching, Bool.not_not]

theorem isActive_join (kind : node.kind = .join key operator operands) :
    (Report.ofRun network facts).isActive id =
      !(joined ((operands.map (Report.ofRun network facts).activationsOf)[0]?.getD [])
        ((operands.map (Report.ofRun network facts).activationsOf)[1]?.getD [])
        operator).isEmpty := by
  refine isActive_eq positive ?_
  rw [Report.activationsOf, Report.ofRun, run_equation wf facts found, pulled, kind]
  exact combine_eq_take _ _ _

theorem isActive_and {left right : NodeId} (kind : node.kind = .join key .and [left, right]) :
    (Report.ofRun network facts).isActive id =
      ((Report.ofRun network facts).isActive left &&
        (Report.ofRun network facts).isActive right) := by
  rw [isActive_join wf positive facts found kind, isEmpty_joined, Bool.not_or]
  rfl

theorem isActive_or {left right : NodeId} (kind : node.kind = .join key .or [left, right]) :
    (Report.ofRun network facts).isActive id =
      ((Report.ofRun network facts).isActive left ||
        (Report.ofRun network facts).isActive right) := by
  rw [isActive_join wf positive facts found kind, isEmpty_joined, Bool.not_and]
  rfl

theorem isActive_not {operand : NodeId} (kind : node.kind = .join key .not [operand]) :
    (Report.ofRun network facts).isActive id =
      !(Report.ofRun network facts).isActive operand := by
  rw [isActive_join wf positive facts found kind, isEmpty_joined]
  rfl

end Active

/-- Every node but the root has a formula, and is active when it is true. -/
theorem exists_formula_isActive (wf : WellFormed network)
    (positive : 1 ≤ network.config.activationLimit) (facts : List Fact)
    (inner : network.IsInner id) :
    ∃ formula, network.formula? id = some formula ∧
      (Report.ofRun network facts).isActive id =
        formula.eval (isMet network.config facts) := by
  -- Induction on the position: the operands of a join stand before it.
  induction id using Nat.strongRecOn with
  | ind id ih =>
    obtain ⟨node, found⟩ := WellFormed.exists_node inner.2
    have reads := wf.reads found
    cases kind : node.kind with
    | root =>
      rw [kind] at reads
      exact absurd reads.1 (Nat.ne_of_gt inner.1)
    | pattern key condition =>
      exact ⟨.atom condition, formulaWithin_pattern found kind id,
        isActive_pattern wf positive facts found kind⟩
    | join key operator operands =>
      rw [kind] at reads
      obtain ⟨-, count, before⟩ := reads
      have each : ∀ operand ∈ operands, ∃ formula, network.formula? operand = some formula ∧
          (Report.ofRun network facts).isActive operand =
            formula.eval (isMet network.config facts) := by
        intro operand member
        obtain ⟨behind, earlier⟩ := before operand member
        exact ih operand earlier ⟨behind, Nat.lt_trans earlier inner.2⟩
      have unfolded := formula?_join wf found kind
      cases operator with
      | and =>
        obtain ⟨left, right, rfl⟩ := List.length_eq_two.mp count
        obtain ⟨one, known, truth⟩ := each left List.mem_cons_self
        obtain ⟨other, known', truth'⟩ := each right (List.mem_cons_of_mem _ List.mem_cons_self)
        refine ⟨.and one other, ?_, ?_⟩
        · rw [unfolded, List.map_cons, List.map_cons, known, known']
          rfl
        · rw [isActive_and wf positive facts found kind, truth, truth']
          rfl
      | or =>
        obtain ⟨left, right, rfl⟩ := List.length_eq_two.mp count
        obtain ⟨one, known, truth⟩ := each left List.mem_cons_self
        obtain ⟨other, known', truth'⟩ := each right (List.mem_cons_of_mem _ List.mem_cons_self)
        refine ⟨.or one other, ?_, ?_⟩
        · rw [unfolded, List.map_cons, List.map_cons, known, known']
          rfl
        · rw [isActive_or wf positive facts found kind, truth, truth']
          rfl
      | not =>
        obtain ⟨operand, rfl⟩ := List.length_eq_one_iff.mp count
        obtain ⟨formula, known, truth⟩ := each operand List.mem_cons_self
        refine ⟨.not formula, ?_, ?_⟩
        · rw [unfolded, List.map_cons, known]
          rfl
        · rw [isActive_not wf positive facts found kind, truth]
          rfl

end Nodes

/-! ## Networks that a builder can reach -/

/-- Whatever calls a builder has seen, and with room for one activation at
least: the nodes other than the root are those with a formula, and exactly those
are active whose formula is true when a condition is read as some fact at the
top level matching it. The rules that apply are the attached ones whose terminal
has a true formula, in the order they were attached, each with the activations
of its terminal. -/
theorem reachable_isActive_iff {config : Config} {builder : Builder}
    (reachable : Reachable config builder) (positive : 1 ≤ config.activationLimit)
    (facts : List Fact) :
    let network := builder.network
    let report := Report.ofRun network facts
    let isTrue (id : Nat) : Bool :=
      (network.formula? id).any fun formula => formula.eval (isMet config facts)
    (∀ id, network.IsInner id ↔ ∃ formula, network.formula? id = some formula) ∧
      (∀ id, report.isActive id = true ↔ isTrue id = true) ∧
      (∀ rule ∈ network.rules, network.IsInner rule.terminal) ∧
      report.ruleMatches =
        (network.rules.filter fun rule => isTrue rule.terminal).map fun rule =>
          ⟨rule, report.activationsOf rule.terminal⟩ := by
  intro network report isTrue
  have wf : WellFormed network := reachable.wellFormed
  have settings : network.config = config := reachable.config_eq
  have room : 1 ≤ network.config.activationLimit := by rwa [settings]
  have inner_iff : ∀ id, network.IsInner id ↔ ∃ formula, network.formula? id = some formula := by
    intro id
    constructor
    · intro inner
      obtain ⟨formula, known, -⟩ := exists_formula_isActive wf room facts inner
      exact ⟨formula, known⟩
    · rintro ⟨formula, known⟩
      by_contra outside
      rw [formula?_of_not_isInner wf outside] at known
      cases known
  have active : ∀ id, report.isActive id = isTrue id := by
    intro id
    by_cases inner : network.IsInner id
    · obtain ⟨formula, known, truth⟩ := exists_formula_isActive wf room facts inner
      show report.isActive id = (network.formula? id).any _
      rw [known, truth, settings]
      rfl
    · show report.isActive id = (network.formula? id).any _
      rw [formula?_of_not_isInner wf inner, isActive_of_not_isInner wf facts inner]
      rfl
  refine ⟨inner_iff, fun id => by rw [active id], wf.terminals, ?_⟩
  show (network.rules.filter fun rule => report.isActive rule.terminal).map _ = _
  rw [List.filter_congr fun rule _ => active rule.terminal]

/-- An axe, no bow, and room for one activation: the node of the axe and the
negation of the bow are active, and so is their conjunction. -/
theorem reachable_isActive_iff_negation :
    let bow : Element := { name := "not", children := [{ name := "bow" }] }
    let condition : Element := { name := "and", children := [{ name := "axe" }, bow] }
    let facts : List Fact := [.group "axe" []]
    let builder := (Builder.ofConfig { maxActivations := some 1 }).offer
      (.ofCondition "only axe" condition)
    let report := Report.ofRun builder.network facts
    ((List.range 5).filter fun id => report.isActive id) = [1, 3, 4] ∧
      report.ruleMatches.map (fun found => found.rule.name) = ["only axe"] := by
  intro bow condition facts builder report
  have reachable : Reachable { maxActivations := some 1 } builder := .offer _ .start
  obtain ⟨-, active, -, applies⟩ := reachable_isActive_iff reachable (by decide) facts
  constructor
  · rw [List.filter_congr fun id _ => Bool.eq_iff_iff.mpr (active id)]
    decide
  · rw [applies, List.map_map]
    decide

end RuleNet.Engine
