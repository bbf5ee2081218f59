import RuleNet.Proofs.Engine.Reference
import RuleNet.Proofs.Network.Settings

/-!
# Cutting activation lists short

The activation limit cuts the list of every node, also of those in the middle
of the network, whose lists others combine. Nevertheless a smaller limit only
shows less of the same: at every node it leaves a prefix of what a larger limit
leaves.

* `take_joined`: a prefix of what an operator makes of two lists depends only on
  prefixes of the same length.
* `addRules_withLimit`: the limit plays no part when rules are compiled.
* `run_withLimit`: running with the smaller limit is running with the larger one
  and cutting afterwards.
* `built_limit_take`: both together, for the same rules under two limits.
-/

namespace RuleNet.Network

open Rule (Definition Key RuleError)
open Settings (Config)

/-! ## Compiling with another limit -/

/-- The network with another activation limit. -/
def withLimit (network : Network) (limit : Option UInt64) : Network :=
  { network with config := { network.config with maxActivations := limit } }

theorem WellFormed.withLimit {network : Network} (wf : WellFormed network) (limit : Option UInt64) :
    WellFormed (network.withLimit limit) where
  nonempty := wf.nonempty
  id_eq := wf.id_eq
  reads := wf.reads
  successors_eq := wf.successors_eq
  genuine := wf.genuine
  candidates_eq := wf.candidates_eq
  terminals := wf.terminals

/-- The limit plays no part in building. -/
theorem indifferent_limit (config : Config) (limit : Option UInt64) :
    Indifferent { config with maxActivations := limit } (fun network => network.config = config)
      fun _ => True where
  find?_eq := by
    rintro network plan rfl -
    rfl
  policy_eq := by
    rintro network rfl
    rfl
  operands _ _ _ := trivial
  instantiate kept _ := (config_instantiate _ _).trans kept
  addRule kept _ added := (config_addRule added).trans kept

namespace Builder

/-- The builder with another activation limit. -/
def withLimit (builder : Builder) (limit : Option UInt64) : Builder :=
  { builder with network := builder.network.withLimit limit }

/-- Compiling a batch does not look at the limit. -/
theorem addRules_withLimit (limit : Option UInt64) (builder : Builder) (rules : List Definition) :
    (builder.withLimit limit).addRules rules =
      ((builder.addRules rules).1.withLimit limit, (builder.addRules rules).2) := by
  have kept : (builder.addRules rules).1.network.config = builder.network.config :=
    addRules_invariant (I := fun network => network.config = builder.network.config)
      (fun added => (config_addRule added).trans) builder rules rfl
  have limited : (builder.addRules rules).1.withLimit limit = (builder.addRules rules).1.withConfig
      { builder.network.config with maxActivations := limit } := by
    rw [withLimit, Network.withLimit, kept]
    rfl
  rw [limited]
  exact (indifferent_limit builder.network.config limit).addRules_withConfig
    (fun _ _ _ _ => trivial) builder rfl

end Builder

end RuleNet.Network

namespace RuleNet.Engine

open Markup (Element)
open Memory (Fact)
open Network (Builder WellFormed)
open Rule (Definition Operator)
open Settings (Config)

/-! ## Prefixes -/

section Prefixes

variable {α β : Type} {f : α → List β}

/-- A prefix of joined lists does not see further than a prefix of each of them. -/
theorem take_flatMap_take {n k : Nat} (le : n ≤ k) (xs : List α) :
    (xs.flatMap fun x => (f x).take k).take n = (xs.flatMap f).take n := by
  induction xs generalizing n with
  | nil => rfl
  | cons x rest ih =>
    have rows : ((f x).take k).take n = (f x).take n := by
      rw [List.take_take, Nat.min_eq_left le]
    have left : n - ((f x).take k).length = n - (f x).length := by
      rw [List.length_take]
      omega
    rw [List.flatMap_cons, List.flatMap_cons, List.take_append, List.take_append, rows, left,
      ih (Nat.le_trans (Nat.sub_le n _) le)]

/-- When no list is empty, a prefix does not see more lists than it is long. -/
theorem take_flatMap_of_ne_nil (filled : ∀ x, f x ≠ []) {n k : Nat} (le : n ≤ k) (xs : List α) :
    ((xs.take k).flatMap f).take n = (xs.flatMap f).take n := by
  induction xs generalizing n k with
  | nil => rw [List.take_nil]
  | cons x rest ih =>
    cases k with
    | zero =>
      rw [Nat.le_zero.mp le, List.take_zero, List.take_zero]
    | succ k =>
      -- The first list takes at least one place, so one list less is enough for the rest.
      have positive := List.length_pos_iff.mpr (filled x)
      rw [List.take_succ_cons, List.flatMap_cons, List.flatMap_cons, List.take_append,
        List.take_append, ih (by omega)]

end Prefixes

theorem isEmpty_take {α : Type} {n : Nat} (positive : 0 < n) (xs : List α) :
    (xs.take n).isEmpty = xs.isEmpty := by
  cases xs with
  | nil => rw [List.take_nil]
  | cons x rest =>
    cases n with
    | zero => exact absurd positive (Nat.lt_irrefl 0)
    | succ n => rfl

theorem pairs_nil (left : List Token) : pairs left [] = [] :=
  List.flatMap_eq_nil_iff.mpr fun _ _ => rfl

theorem take_pairs (n : Nat) (left right : List Token) :
    (pairs (left.take n) (right.take n)).take n = (pairs left right).take n := by
  have rows : (pairs (left.take n) (right.take n)).take n = (pairs (left.take n) right).take n := by
    simp only [pairs, List.map_take]
    exact take_flatMap_take (Nat.le_refl n) _
  rw [rows]
  cases right with
  | nil => rw [pairs_nil, pairs_nil]
  | cons token rest =>
    exact take_flatMap_of_ne_nil (fun _ => List.cons_ne_nil _ _) (Nat.le_refl n) left

/-- A prefix of what an operator makes of two lists depends only on prefixes. -/
theorem take_joined (n : Nat) (left right : List Token) (operator : Operator) :
    (joined (left.take n) (right.take n) operator).take n =
      (joined left right operator).take n := by
  rcases Nat.eq_zero_or_pos n with rfl | positive
  · rw [List.take_zero, List.take_zero]
  · cases operator with
    | and => exact take_pairs n left right
    | or =>
      simp only [joined, isEmpty_take positive]
      split
      · rw [List.take_take, Nat.min_self]
      split
      · rw [List.take_take, Nat.min_self]
      · exact take_pairs n left right
    | not => simp only [joined, isEmpty_take positive]

theorem getD_map_take (n : Nat) (lists : List (List Token)) (i : Nat) :
    (lists.map (List.take n))[i]?.getD [] = (lists[i]?.getD []).take n := by
  rw [List.getElem?_map]
  cases lists[i]? with
  | none => exact List.take_nil.symm
  | some tokens => rfl

/-- Cutting the inputs of a join cuts its activations. -/
theorem combine_take {small large : Nat} (le : small ≤ large) (operator : Operator)
    (inputs : List (List Token)) :
    combine operator (inputs.map (List.take small)) small =
      (combine operator inputs large).take small := by
  rw [combine_eq_take, combine_eq_take, getD_map_take, getD_map_take, take_joined, List.take_take,
    Nat.min_eq_left le]

/-! ## Runs under two limits -/

section Runs

variable {network : Network} {small large : Option UInt64}

/-- How many activations a setting of the limit leaves at a node. -/
def limitOf (limit : Option UInt64) : Nat :=
  (Config.activationLimit { maxActivations := limit }).toNat

theorem matching_withLimit (limit : Option UInt64) (condition : Rule.Condition)
    (facts : List Placed) :
    matching (network.withLimit limit).config condition facts =
      matching network.config condition facts := rfl

/-- One node: when the inputs were cut, so is what comes out. -/
theorem pulled_withLimit (le : limitOf small ≤ limitOf large) (facts : List Placed)
    (activations : List (List Token)) (node : Network.Node) :
    pulled (network.withLimit small) facts (activations.map (List.take (limitOf small))) node =
      (pulled (network.withLimit large) facts activations node).take (limitOf small) := by
  rw [pulled, pulled]
  cases node.kind with
  | root => exact List.take_nil.symm
  | pattern key condition =>
    simp only [activate_eq_take, matching_withLimit]
    exact (List.take_take.trans (congrArg (List.take · _) (Nat.min_eq_left le))).symm
  | join key operator operands =>
    have inputs : (operands.map fun operand =>
          (activations.map (List.take (limitOf small)))[operand]?.getD []) =
        (operands.map fun operand => activations[operand]?.getD []).map
          (List.take (limitOf small)) := by
      rw [List.map_map]
      exact List.map_congr_left fun operand _ => getD_map_take _ _ _
    simp only [inputs]
    exact combine_take le operator _

/-- Running under the smaller limit is running under the larger one and cutting afterwards. -/
theorem run_withLimit (wf : WellFormed network) (le : limitOf small ≤ limitOf large)
    (facts : List Fact) :
    run (network.withLimit small) facts =
      (run (network.withLimit large) facts).map (List.take (limitOf small)) := by
  refine List.ext_getElem? fun i => ?_
  -- Induction on the position: a node pulls from nodes before it.
  induction i using Nat.strongRecOn with
  | ind i ih =>
    rw [List.getElem?_map]
    rcases Nat.lt_or_ge i network.size with inside | outside
    · obtain ⟨node, found⟩ := WellFormed.exists_node inside
      have tight : (network.withLimit small).node? i = some node := found
      have wide : (network.withLimit large).node? i = some node := found
      rw [run_equation (wf.withLimit small) facts tight,
        run_equation (wf.withLimit large) facts wide, pulled_congr (wf.withLimit small) tight ih,
        pulled_withLimit le, Option.map_some]
    · have tight := length_run (wf.withLimit small) facts
      have wide := length_run (wf.withLimit large) facts
      rw [List.getElem?_eq_none (Nat.le_trans (Nat.le_of_eq tight) outside),
        List.getElem?_eq_none (Nat.le_trans (Nat.le_of_eq wide) outside), Option.map_none]

/-- A limit of at least one leaves every active node active. -/
theorem ruleMatches_withLimit (wf : WellFormed network) (le : limitOf small ≤ limitOf large)
    (positive : 0 < limitOf small) (facts : List Fact) :
    (Report.ofRun (network.withLimit small) facts).ruleMatches.map RuleMatch.rule =
      (Report.ofRun (network.withLimit large) facts).ruleMatches.map RuleMatch.rule := by
  have active : ∀ id, (Report.ofRun (network.withLimit small) facts).isActive id =
      (Report.ofRun (network.withLimit large) facts).isActive id := by
    intro id
    rw [Report.isActive, Report.isActive, Report.activationsOf, Report.activationsOf,
      Report.ofRun, Report.ofRun, run_withLimit wf le, getD_map_take, isEmpty_take positive]
  rw [Report.ruleMatches, Report.ruleMatches, List.map_map, List.map_map]
  simp only [active]
  rfl

end Runs

/-- The same rules compiled under two limits give networks of the same nodes.
Under the smaller limit every node has a prefix of what it has under the larger
one, as long as the smaller limit says; and if that is not zero, the same rules
apply. -/
theorem built_limit_take (config : Config) (rules : List Definition) {small large : Option UInt64}
    (le : limitOf small ≤ limitOf large) (facts : List Fact) :
    let built limit :=
      ((Builder.ofConfig { config with maxActivations := limit }).addRules rules).1.network
    (built small).nodes = (built large).nodes ∧ (built small).rules = (built large).rules ∧
      run (built small) facts = (run (built large) facts).map (List.take (limitOf small)) ∧
      (0 < limitOf small →
        (Report.ofRun (built small) facts).ruleMatches.map RuleMatch.rule =
          (Report.ofRun (built large) facts).ruleMatches.map RuleMatch.rule) := by
  intro built
  have unlimited : ∀ limit, built limit =
      ((Builder.ofConfig config).addRules rules).1.network.withLimit limit := fun limit =>
    congrArg (fun outcome => outcome.1.network)
      (Builder.addRules_withLimit limit (Builder.ofConfig config) rules)
  have wf : WellFormed ((Builder.ofConfig config).addRules rules).1.network :=
    (Network.Reachable.addRules rules .start).wellFormed
  rw [unlimited, unlimited]
  exact ⟨rfl, rfl, run_withLimit wf le facts, fun positive =>
    ruleMatches_withLimit wf le positive facts⟩

/-- One pattern is both operands of a conjunction, and three of the four pairs
of facts are left. -/
theorem built_limit_take_pair :
    let pattern : Element := { name := "weapon", attributes := [("type", "string")], text := "axe" }
    let rule := Definition.ofCondition "pair" { name := "and", children := [pattern, pattern] }
    let facts : List Fact := [.leaf 1 "weapon" (.string "axe"), .leaf 2 "weapon" (.string "axe")]
    let built limit := ((Builder.ofConfig { maxActivations := limit }).addRules [rule]).1.network
    (run (built none) facts).map List.length = [0, 2, 4] ∧
      (run (built (some 3)) facts).map List.length = [0, 2, 3] ∧
      (Report.ofRun (built none) facts).matchedNames = ["pair"] ∧
      (Report.ofRun (built (some 3)) facts).ruleMatches.map RuleMatch.rule =
        (Report.ofRun (built none) facts).ruleMatches.map RuleMatch.rule := by
  intro pattern rule facts built
  have le : limitOf (some 3) ≤ limitOf none := by decide
  obtain ⟨-, -, cut, same⟩ := built_limit_take {} [rule] le facts
  refine ⟨by decide, ?_, by decide, same (by decide)⟩
  calc (run (built (some 3)) facts).map List.length
      = ((run (built none) facts).map (List.take 3)).map List.length := congrArg _ cut
    _ = [0, 2, 3] := by decide

end RuleNet.Engine
