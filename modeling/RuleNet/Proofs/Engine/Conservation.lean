import RuleNet.Proofs.Engine.Propagation

/-!
# Growing conserves what was there

A rule that is added to a network links its nodes behind nodes that are there
already, and a run pushes activations along these links. The links lead to later
nodes only, and a node pulls from earlier ones, so no old node notices.

* `Continues.growth`: further calls to a builder grow its network.
* `getElem?_run_of_extends`: an old node has the same activations in the grown
  network.
* `ruleMatches_of_extends`: the old rules that apply are the same, before all
  new ones.
* `continues_conserves`: nodes, rules and activations under any further calls.
-/

namespace RuleNet.Network

open Rule (Definition)
open Settings (Config)

/-! ## Further calls -/

/-- The builders that further calls lead to. The calls may fail. -/
inductive Continues (builder : Builder) : Builder → Prop
  | refl : Continues builder builder
  | offer {later : Builder} (rule : Definition) :
      Continues builder later → Continues builder (later.offer rule)
  | addRules {later : Builder} (rules : List Definition) :
      Continues builder later → Continues builder (later.addRules rules).1

theorem Continues.reachable {config : Config} {builder later : Builder}
    (continues : Continues builder later) (reachable : Reachable config builder) :
    Reachable config later := by
  induction continues with
  | refl => exact reachable
  | offer rule _ ih => exact .offer rule ih
  | addRules rules _ ih => exact .addRules rules ih

/-- Further calls grow the network. -/
theorem Continues.growth {builder later : Builder} (continues : Continues builder later)
    (wf : WellFormed builder.network) : Growth builder.network later.network := by
  have step : ∀ {network grown : Network} {rule : Definition} {attached : AttachedRule},
      network.addRule rule = .ok (attached, grown) →
        Growth builder.network network → Growth builder.network grown := by
    intro network grown rule attached added growth
    exact growth.trans (addRule_growth added (growth.wellFormed wf))
  induction continues with
  | refl => exact .refl
  | offer rule _ ih => exact Builder.offer_invariant step _ rule ih
  | addRules rules _ ih => exact Builder.addRules_invariant step _ rules ih

/-! ## Rules and successors -/

section Growing

variable {old new : Network}

theorem Grows.rules_prefix (grows : Grows old new) : old.rules <+: new.rules := by
  cases grows with
  | pattern genuine => exact List.prefix_refl _
  | join genuine count known => exact List.prefix_refl _
  | attach inner => exact List.prefix_append _ _

/-- Attached rules stay in place. -/
theorem Growth.rules_prefix (growth : Growth old new) : old.rules <+: new.rules := by
  induction growth with
  | refl => exact List.prefix_refl _
  | tail _ grows ih => exact ih.trans grows.rules_prefix

/-- The successors that an old node gets are new nodes of the grown network. -/
theorem Extends.new_successors (extension : old.Extends new) (wf : WellFormed new) {i : Nat}
    {node : Node} (found : old.node? i = some node) :
    ∃ added, new.node? i = some { node with successors := node.successors ++ added } ∧
      ∀ reader : Nat, reader ∈ added → old.size ≤ reader ∧ reader < new.size := by
  obtain ⟨added, there, behind⟩ := extension found
  refine ⟨added, there, fun reader member => ⟨behind reader member, ?_⟩⟩
  have reading := wf.successors_eq there
  have listed : reader ∈ new.readers i := by
    rw [← reading]
    exact List.mem_append_right _ member
  exact List.mem_range.mp (List.mem_filter.mp listed).1

end Growing

end RuleNet.Network

namespace RuleNet.Engine

open Markup (Element)
open Memory (Fact)
open Network (AttachedRule Builder Continues Node Reachable WellFormed)
open Rule (Definition)
open Settings (Config)

/-! ## Activations -/

section Runs

variable {old new : Network} (wf : WellFormed old) (wf' : WellFormed new)
  (extension : old.Extends new) (settings : new.config = old.config)
include wf wf' extension settings

/-- An old node has the same activations in the grown network. -/
theorem getElem?_run_of_extends (facts : List Fact) {i : Nat} (inside : i < old.size) :
    (run new facts)[i]? = (run old facts)[i]? := by
  -- Induction on the position: an old node reads from old nodes only.
  induction i using Nat.strongRecOn with
  | ind i ih =>
    obtain ⟨node, found⟩ := WellFormed.exists_node inside
    obtain ⟨added, there, -⟩ := extension found
    have pulls : pulled new (place facts) (run new facts)
          { node with successors := node.successors ++ added } =
        pulled old (place facts) (run new facts) node := by
      unfold pulled
      rw [settings]
    have operands : pulled old (place facts) (run new facts) node =
        pulled old (place facts) (run old facts) node :=
      pulled_congr wf found fun source before =>
        ih source before (Nat.lt_trans before inside)
    rw [run_equation wf' facts there, run_equation wf facts found, pulls, operands]

theorem activationsOf_of_extends (facts : List Fact) {id : Nat} (inside : id < old.size) :
    (Report.ofRun new facts).activationsOf id = (Report.ofRun old facts).activationsOf id := by
  show (run new facts)[id]?.getD [] = (run old facts)[id]?.getD []
  rw [getElem?_run_of_extends wf wf' extension settings facts inside]

/-- The old rules apply as before, and come before all new ones. -/
theorem ruleMatches_of_extends (facts : List Fact) {added : List AttachedRule}
    (rules : new.rules = old.rules ++ added) :
    (Report.ofRun new facts).ruleMatches = (Report.ofRun old facts).ruleMatches ++
      (added.filter fun rule => (Report.ofRun new facts).isActive rule.terminal).map fun rule =>
        ⟨rule, (Report.ofRun new facts).activationsOf rule.terminal⟩ := by
  have tokens : ∀ rule ∈ old.rules, (Report.ofRun new facts).activationsOf rule.terminal =
      (Report.ofRun old facts).activationsOf rule.terminal := by
    intro rule member
    exact activationsOf_of_extends wf wf' extension settings facts (wf.terminals rule member).2
  have active : ∀ rule ∈ old.rules, (Report.ofRun new facts).isActive rule.terminal =
      (Report.ofRun old facts).isActive rule.terminal := by
    intro rule member
    rw [Report.isActive, tokens rule member, Report.isActive]
  show (new.rules.filter _).map _ = (old.rules.filter _).map _ ++ _
  rw [rules, List.filter_append, List.map_append, List.filter_congr active]
  congr 1
  refine List.map_congr_left fun rule member => ?_
  rw [tokens rule (List.mem_of_mem_filter member)]

end Runs

/-! ## Further calls to a builder -/

/-- Whatever calls a builder has seen, and whatever calls follow: a node that was
there is still there, the same but for new nodes behind its successors. The
rules that were attached are still the first ones. For all facts, a node that
was there has the same activations, and of the old rules the same apply. -/
theorem continues_conserves {config : Config} {builder later : Builder}
    (reachable : Reachable config builder) (continues : Continues builder later) :
    let old := builder.network
    let new := later.network
    (∀ (i : Nat) (node : Node), old.node? i = some node →
      ∃ added, new.node? i = some { node with successors := node.successors ++ added } ∧
        ∀ reader : Nat, reader ∈ added → old.size ≤ reader ∧ reader < new.size) ∧
    ∃ added, new.rules = old.rules ++ added ∧ ∀ facts : List Fact,
      (∀ id : Nat, id < old.size →
        (Report.ofRun new facts).activationsOf id = (Report.ofRun old facts).activationsOf id) ∧
      (Report.ofRun new facts).ruleMatches = (Report.ofRun old facts).ruleMatches ++
        (added.filter fun rule => (Report.ofRun new facts).isActive rule.terminal).map fun rule =>
          ⟨rule, (Report.ofRun new facts).activationsOf rule.terminal⟩ := by
  intro old new
  have wf : WellFormed old := reachable.wellFormed
  have wf' : WellFormed new := (continues.reachable reachable).wellFormed
  have growth : Network.Growth old new := continues.growth wf
  have extension : old.Extends new := growth.extends wf
  obtain ⟨added, rules⟩ := growth.rules_prefix
  refine ⟨fun i node found => extension.new_successors wf' found, added, rules.symm, ?_⟩
  intro facts
  constructor
  · intro id inside
    exact activationsOf_of_extends wf wf' extension growth.config_eq facts inside
  · exact ruleMatches_of_extends wf wf' extension growth.config_eq facts rules.symm

/-- A second rule reads from the pattern of the first one, and a third one fails. -/
theorem continues_conserves_shared :
    let axe : Element := { name := "axe" }
    let builder := (Builder.ofConfig {}).offer (.ofCondition "armed" axe)
    let later := (builder.offer (.ofCondition "unarmed" { name := "not", children := [axe] })).offer
      { name := "unconditional" }
    let facts : List Fact := [.group "axe" []]
    builder.network.successors 1 = [] ∧ later.network.successors 1 = [2] ∧
      later.network.rules.map AttachedRule.name = ["armed", "unarmed"] ∧
      (Report.ofRun later.network facts).activationsOf 1 =
        (Report.ofRun builder.network facts).activationsOf 1 ∧
      ((Report.ofRun builder.network facts).activationsOf 1).length = 1 := by
  intro axe builder later facts
  have reachable : Reachable {} builder := .offer _ .start
  have continues : Continues builder later := .offer _ (.offer _ .refl)
  obtain ⟨-, added, -, conserved⟩ := continues_conserves reachable continues
  exact ⟨by decide, by decide, by decide, (conserved facts).1 1 (by decide), by decide⟩

end RuleNet.Engine
