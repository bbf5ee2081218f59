import RuleNet.Network.Graph
import RuleNet.Network.Plan

/-!
# Building a network

Rules are compiled one after the other. A rule is planned first, which is
where it can fail, so a rule that fails leaves the network as it was. Then the
plan is turned into nodes, reusing every node that can stand for a part of it.
-/

namespace RuleNet.Network

open Rule (Condition Definition Key Operator RuleError)
open Settings (Config InvalidRules)

mutual
/-- The node for a plan, and the network with it. An existing join has its
operands already. -/
def instantiate : Network → Plan → NodeId × Network
  | network, .pattern key condition =>
      match network.find? key with
      | some id => (id, network)
      | none => network.addPattern key condition
  | network, .join key operator operands =>
      match network.find? key with
      | some id => (id, network)
      | none =>
          let (ids, network) := instantiateAll network operands
          network.addJoin key operator ids

/-- The nodes for several plans, made from left to right. -/
def instantiateAll : Network → List Plan → List NodeId × Network
  | network, [] => ([], network)
  | network, plan :: rest =>
      let (id, network) := instantiate network plan
      let (ids, network) := instantiateAll network rest
      (id :: ids, network)
end

/-- A plan whose key is known leads to the node that has it. -/
theorem instantiate_of_find? {network : Network} (plan : Plan) {id : NodeId}
    (found : network.find? plan.key = some id) : network.instantiate plan = (id, network) := by
  cases plan with
  | pattern key condition => rw [instantiate, show network.find? key = some id from found]
  | join key operator operands => rw [instantiate, show network.find? key = some id from found]

theorem instantiate_pattern {network : Network} {key : Key} {condition : Condition}
    (new : network.find? key = none) :
    network.instantiate (.pattern key condition) = network.addPattern key condition := by
  rw [instantiate, new]

theorem instantiate_join {network : Network} {key : Key} {operator : Operator}
    {operands : List Plan} (new : network.find? key = none) :
    network.instantiate (.join key operator operands) =
      (network.instantiateAll operands).2.addJoin key operator
        (network.instantiateAll operands).1 := by
  rw [instantiate, new]

@[simp] theorem instantiateAll_nil (network : Network) :
    network.instantiateAll [] = ([], network) := rfl

@[simp] theorem instantiateAll_cons (network : Network) (plan : Plan) (rest : List Plan) :
    network.instantiateAll (plan :: rest) =
      ((network.instantiate plan).1 :: ((network.instantiate plan).2.instantiateAll rest).1,
        ((network.instantiate plan).2.instantiateAll rest).2) := rfl

/-- The network with one more rule, and the rule as it is attached. -/
def addRule (network : Network) (rule : Definition) : Except RuleError (AttachedRule × Network) :=
  (Plan.ofRule rule).map fun plan =>
    let (terminal, network) := network.instantiate plan
    let attached : AttachedRule :=
      { name := rule.name, terminal := terminal, action := rule.action }
    (attached, network.attach attached)

/-- A rule that was left out, and why. -/
structure SkippedRule where
  name : String
  error : RuleError
deriving DecidableEq, Repr

/-- A network under construction. -/
structure Builder where
  network : Network := {}
  /-- The rules that were left out, in order. -/
  skipped : List SkippedRule := []
deriving Inhabited, Repr

namespace Builder

/-- The builder of an empty network. -/
def ofConfig (config : Config) : Builder :=
  { network := { config := config } }

/-- One rule is added; an error changes nothing. -/
def addRule (builder : Builder) (rule : Definition) : Except RuleError (AttachedRule × Builder) :=
  (builder.network.addRule rule).map fun (attached, network) =>
    (attached, { builder with network := network })

/-- Several rules are added. A rule that fails stops the batch or is left out,
as the settings say. The rules before it stay. -/
def addRules : Builder → List Definition → Builder × Option RuleError
  | builder, [] => (builder, none)
  | builder, rule :: rest =>
      match builder.addRule rule with
      | .ok (_, builder) => addRules builder rest
      | .error error =>
          match builder.network.config.invalidRules with
          | .failFast => (builder, some error)
          | .skip =>
              addRules { builder with skipped := builder.skipped ++ [⟨rule.name, error⟩] } rest

section Batches

variable {builder grown : Builder} {rule : Definition} {attached : AttachedRule}
  {why : RuleError} (rest : List Definition)

theorem addRules_of_ok (added : builder.addRule rule = .ok (attached, grown)) :
    builder.addRules (rule :: rest) = grown.addRules rest := by
  rw [addRules, added]

theorem addRules_failFast (failed : builder.addRule rule = .error why)
    (policy : builder.network.config.invalidRules = .failFast) :
    builder.addRules (rule :: rest) = (builder, some why) := by
  rw [addRules, failed]
  simp only [policy]

theorem addRules_skip (failed : builder.addRule rule = .error why)
    (policy : builder.network.config.invalidRules = .skip) :
    builder.addRules (rule :: rest) =
      Builder.addRules { builder with skipped := builder.skipped ++ [⟨rule.name, why⟩] } rest := by
  rw [addRules, failed]
  simp only [policy]

end Batches

/-- The builder after a whole set of rules, or the error that stopped it. -/
def build (config : Config) (rules : List Definition) : Except RuleError Builder :=
  match (ofConfig config).addRules rules with
  | (builder, none) => .ok builder
  | (_, some error) => .error error

end Builder

end RuleNet.Network
