import Mathlib.Data.List.Find
import RuleNet.Proofs.Engine.Compilation

/-!
# Building under other settings

A network is built by looking keys up and adding nodes, and what is looked up may
depend on the settings. Settings under which every lookup on the way has the same
answer (`Indifferent`) lead to the same network. The lookups are made for keys of
the rules, in networks that have no other keys (`Ready`).

* `Indifferent.instantiate_withConfig`, `Indifferent.addRules_withConfig`: a plan
  and a batch of rules, built under two settings.
* `Ready.instantiate`, `Ready.addRule`: no other keys come up on the way.
* `build_unconfirmed`: as long as the hashes of different texts differ, texts
  need not be compared.
-/

namespace RuleNet

open Settings (Config)

/-- The network under other settings. -/
def Network.withConfig (network : Network) (config : Config) : Network :=
  { network with config := config }

/-- The builder under other settings. -/
def Network.Builder.withConfig (builder : Builder) (config : Config) : Builder :=
  { builder with network := builder.network.withConfig config }

end RuleNet

namespace RuleNet.Network

open Markup (Element)
open Rule (Definition Key Operator)
open Settings (Config)

/-! ## Settings that make no difference -/

/-- All plans that the rule can have satisfy the condition. -/
def Asks (P : Plan → Prop) (rule : Definition) : Prop :=
  ∀ plan, Plan.ofRule rule = .ok plan → P plan

/-- In the networks in question and for the plans in question, other settings find
the same nodes and do the same with invalid rules; and there are no other networks
and plans on the way. -/
structure Indifferent (other : Config) (I : Network → Prop) (P : Plan → Prop) : Prop where
  find?_eq : ∀ {network : Network} {plan : Plan}, I network → P plan →
    (network.withConfig other).find? plan.key = network.find? plan.key
  policy_eq : ∀ {network : Network}, I network →
    other.invalidRules = network.config.invalidRules
  operands : ∀ {key : Key} {operator : Operator} {operands : List Plan},
    P (.join key operator operands) → ∀ operand ∈ operands, P operand
  instantiate : ∀ {network : Network} {plan : Plan}, I network → P plan →
    I (network.instantiate plan).2
  addRule : ∀ {network grown : Network} {rule : Definition} {attached : AttachedRule},
    I network → Asks P rule → network.addRule rule = .ok (attached, grown) → I grown

namespace Indifferent

variable {other : Config} {I : Network → Prop} {P : Plan → Prop}
  (same : Indifferent other I P)
include same

theorem instantiateAll_withConfig {plans : List Plan} (asked : ∀ plan ∈ plans, P plan)
    (each : ∀ plan ∈ plans, ∀ {network : Network}, I network →
      (network.withConfig other).instantiate plan =
        ((network.instantiate plan).1, (network.instantiate plan).2.withConfig other))
    {network : Network} (start : I network) :
    (network.withConfig other).instantiateAll plans =
      ((network.instantiateAll plans).1, (network.instantiateAll plans).2.withConfig other) := by
  induction plans generalizing network with
  | nil => rfl
  | cons plan rest ih =>
    rw [instantiateAll_cons, instantiateAll_cons, each plan List.mem_cons_self start,
      ih (fun plan member => asked plan (List.mem_cons_of_mem _ member))
        (fun plan member => each plan (List.mem_cons_of_mem _ member))
        (same.instantiate start (asked plan List.mem_cons_self))]

/-- A plan leads to the same nodes. -/
theorem instantiate_withConfig {plan : Plan} (asked : P plan) {network : Network}
    (start : I network) :
    (network.withConfig other).instantiate plan =
      ((network.instantiate plan).1, (network.instantiate plan).2.withConfig other) := by
  induction plan using Plan.induction generalizing network with
  | onPattern key condition =>
    have look : (network.withConfig other).find? key = network.find? key :=
      same.find?_eq start asked
    cases found : network.find? key with
    | some id =>
      rw [instantiate_of_find? (.pattern key condition) found,
        instantiate_of_find? (.pattern key condition) (look.trans found)]
    | none =>
      rw [instantiate_pattern found, instantiate_pattern (look.trans found)]
      rfl
  | onJoin key operator operands ih =>
    have look : (network.withConfig other).find? key = network.find? key :=
      same.find?_eq start asked
    cases found : network.find? key with
    | some id =>
      rw [instantiate_of_find? (.join key operator operands) found,
        instantiate_of_find? (.join key operator operands) (look.trans found)]
    | none =>
      -- Neither network has the join, and both look its operands up before they make it.
      have below := same.operands asked
      rw [instantiate_join found, instantiate_join (look.trans found),
        same.instantiateAll_withConfig below
          (fun operand member _ start => ih operand member (below operand member) start) start]
      rfl

theorem addRule_withConfig {rule : Definition} (asks : Asks P rule) {builder : Builder}
    (start : I builder.network) :
    (builder.withConfig other).addRule rule =
      (builder.addRule rule).map fun (attached, grown) => (attached, grown.withConfig other) := by
  rw [Builder.addRule, Builder.addRule, Network.addRule, Network.addRule, Builder.withConfig]
  cases planned : Plan.ofRule rule with
  | error why => rfl
  | ok plan =>
    simp only [Except.map, same.instantiate_withConfig (asks plan planned) start]
    rfl

/-- A batch leads to the same nodes, and the same rules are rejected. -/
theorem addRules_withConfig {rules : List Definition} (asks : ∀ rule ∈ rules, Asks P rule)
    (builder : Builder) (start : I builder.network) :
    (builder.withConfig other).addRules rules =
      ((builder.addRules rules).1.withConfig other, (builder.addRules rules).2) := by
  induction rules generalizing builder with
  | nil => rfl
  | cons rule rest ih =>
    have asked := asks rule List.mem_cons_self
    have alike := same.addRule_withConfig asked start
    have later := ih fun rule member => asks rule (List.mem_cons_of_mem _ member)
    cases added : builder.addRule rule with
    | ok result =>
      obtain ⟨attached, grown⟩ := result
      obtain ⟨network, inner, rfl⟩ := Builder.addRule_eq_ok added
      rw [added] at alike
      rw [Builder.addRules_of_ok rest added, Builder.addRules_of_ok rest alike]
      exact later _ (same.addRule start asked inner)
    | error why =>
      rw [added] at alike
      have policy : (builder.withConfig other).network.config.invalidRules =
          builder.network.config.invalidRules := same.policy_eq start
      cases verdict : builder.network.config.invalidRules with
      | failFast =>
        rw [Builder.addRules_failFast rest added verdict,
          Builder.addRules_failFast rest alike (policy.trans verdict)]
      | skip =>
        rw [Builder.addRules_skip rest added verdict,
          Builder.addRules_skip rest alike (policy.trans verdict)]
        exact later ⟨builder.network, builder.skipped ++ [⟨rule.name, why⟩]⟩ start

/-- A list of rules is built alike. -/
theorem build_withConfig {config : Config} (start : I { config := config })
    {rules : List Definition} (asks : ∀ rule ∈ rules, Asks P rule) :
    Builder.build other rules =
      (Builder.build config rules).map fun builder => builder.withConfig other := by
  have alike := same.addRules_withConfig asks (.ofConfig config) start
  have empty : Builder.ofConfig other = (Builder.ofConfig config).withConfig other := rfl
  rw [Builder.build, Builder.build, empty, alike]
  rcases (Builder.ofConfig config).addRules rules with ⟨builder, _ | why⟩
  · rfl
  · rfl

end Indifferent

/-! ## Keys on the way -/

/-- All keys of the network are among the given ones. -/
def KeysAmong (keys : Key → Prop) (network : Network) : Prop :=
  ∀ ⦃id : Nat⦄ ⦃node : Node⦄ ⦃key : Key⦄, network.node? id = some node →
    node.key? = some key → keys key

/-- A well-formed network with the given settings, whose keys are all among the given ones. -/
structure Ready (config : Config) (keys : Key → Prop) (network : Network) : Prop where
  wf : WellFormed network
  config_eq : network.config = config
  among : KeysAmong keys network

/-- A sound plan whose keys, and those of its parts, are all among the given ones. -/
structure Asked (keys : Key → Prop) (plan : Plan) : Prop where
  sound : plan.Sound
  among : ∀ part, IsPart part plan → keys part.key

section Keys

variable {config : Config} {keys : Key → Prop} {network : Network}

theorem Asked.operands {key : Key} {operator : Operator} {operands : List Plan}
    (asked : Asked keys (.join key operator operands)) :
    ∀ operand ∈ operands, Asked keys operand := by
  intro operand member
  cases asked.sound with
  | join _ _ _ sound =>
    exact ⟨sound operand member, fun part inside => asked.among part (.operand member inside)⟩

theorem Ready.ofConfig (config : Config) (keys : Key → Prop) :
    Ready config keys { config := config } where
  wf := .ofConfig config
  config_eq := rfl
  among := by
    intro id node key found carried
    have inner := (WellFormed.ofConfig config).isInner_of_key? found carried
    exact absurd inner.2 (Nat.not_lt.mpr inner.1)

theorem KeysAmong.addPattern (among : KeysAmong keys network) {key : Key} (asked : keys key)
    (condition : Rule.Condition) : KeysAmong keys (network.addPattern key condition).2 := by
  intro id node carried found has
  rw [Node.key?] at has
  rcases node?_addPattern_inv found with new | ⟨old, there, same⟩
  · rw [new] at has
    cases has
    exact asked
  · rw [same] at has
    exact among there has

theorem KeysAmong.addJoin (among : KeysAmong keys network) {key : Key} (asked : keys key)
    (operator : Operator) (ids : List NodeId) :
    KeysAmong keys (network.addJoin key operator ids).2 := by
  intro id node carried found has
  rcases node?_addNode_inv found with ⟨-, rfl⟩ | ⟨old, there, -, rfl⟩
  · cases has
    exact asked
  · refine among there ?_
    rw [← has]
    split <;> simp

/-- The nodes for a plan have keys of the plan and its parts. -/
theorem Ready.instantiate (ready : Ready config keys network) {plan : Plan}
    (asked : Asked keys plan) : Ready config keys (network.instantiate plan).2 where
  wf := (instantiate_growth asked.sound ready.wf).1.wellFormed ready.wf
  config_eq := (config_instantiate plan network).trans ready.config_eq
  among :=
    instantiate_invariant (I := KeysAmong keys) (P := Asked keys)
      (fun among asked => among.addPattern (asked.among _ .self) _)
      (fun among asked => among.addJoin (asked.among _ .self) _ _) Asked.operands asked ready.among

theorem Ready.addRule (ready : Ready config keys network) {rule : Definition}
    (asks : Asks (Asked keys) rule) {attached : AttachedRule} {grown : Network}
    (added : network.addRule rule = .ok (attached, grown)) : Ready config keys grown := by
  obtain ⟨plan, planned, rfl, rfl⟩ := addRule_eq_ok added
  have ready' := ready.instantiate (asks plan planned)
  have inner := (instantiate_growth (asks plan planned).sound ready.wf).2
  exact { wf := ready'.wf.attach inner, config_eq := ready'.config_eq, among := ready'.among }

end Keys

/-! ## Comparing texts or not -/

/-- Different canonical texts of the elements have different hashes. -/
def HashesApart (elements : List Element) : Prop :=
  ∀ a ∈ elements, ∀ b ∈ elements,
    (Key.ofElement a).hash = (Key.ofElement b).hash →
      (Key.ofElement a).canonical = (Key.ofElement b).canonical

instance (elements : List Element) : Decidable (HashesApart elements) :=
  inferInstanceAs (Decidable (∀ a ∈ elements, ∀ b ∈ elements,
    (Key.ofElement a).hash = (Key.ofElement b).hash →
      (Key.ofElement a).canonical = (Key.ofElement b).canonical))

/-- The keys of a planned expression are those of its subexpressions. -/
theorem IsPart.exists_subexpression {part plan : Plan} (inside : IsPart part plan)
    {element : Element} (planned : Plan.ofElement element = .ok plan) :
    ∃ own ∈ subexpressions element, part.key = Key.ofElement own := by
  induction inside generalizing element with
  | self => exact ⟨element, self_mem_subexpressions element, Plan.key_of_ofElement planned⟩
  | operand member inside ih =>
    rcases Plan.ofElement_inv planned with ⟨_, _, _, made⟩ | ⟨operator, operands, tag, -, all, made⟩
    · cases made
    · cases made
      obtain ⟨child, below, planned⟩ := mem_right_of_forall₂ all member
      obtain ⟨own, here, same⟩ := ih planned
      exact ⟨own, subexpressions_operand tag below here, same⟩

/-- The key is the one of a subexpression of a condition that can be compiled. -/
def IsKeyOf (rules : List Definition) (key : Key) : Prop :=
  ∃ element ∈ (compilable rules).flatMap fun rule => subexpressions rule.2,
    key = Key.ofElement element

/-- The rules of a list ask for no other keys. -/
theorem asks_of_mem {rules : List Definition} {rule : Definition} (member : rule ∈ rules) :
    Asks (Asked (IsKeyOf rules)) rule := by
  intro plan planned
  obtain ⟨element, chosen, made⟩ := Plan.ofRule_eq_ok planned
  refine ⟨Plan.sound_of_ofElement made, fun part inside => ?_⟩
  obtain ⟨own, here, same⟩ := inside.exists_subexpression made
  refine ⟨own, List.mem_flatMap.mpr ⟨(rule, element), ?_, here⟩, same⟩
  refine List.mem_filterMap.mpr ⟨rule, member, ?_⟩
  rw [compilable?_eq_some chosen planned, Option.map_some]

section Unconfirmed

variable {config : Config} {rules : List Definition}
  (apart : HashesApart ((compilable rules).flatMap fun rule => subexpressions rule.2))
include apart

/-- What is found under the hash of a key has the key's text, so it does not matter
whether the texts are compared. -/
theorem find?_unconfirmed {network : Network} {key : Key}
    (ready : Ready { config with confirmCanonicalText := true } (IsKeyOf rules) network)
    (own : IsKeyOf rules key) :
    (network.withConfig { config with confirmCanonicalText := false }).find? key =
      network.find? key := by
  -- Whatever is listed under the hash has a key with this hash, and hence the same text.
  refine List.find?_congr fun id listed => ?_
  have member : id ∈ network.hashed key.hash := ready.wf.candidates_eq key.hash ▸ listed
  obtain ⟨node, carried, found, has, same⟩ := mem_hashed.mp member
  obtain ⟨element, inside, rfl⟩ := own
  obtain ⟨element', inside', rfl⟩ := ready.among found has
  have texts := apart element' inside' element inside same
  have seen : network.accepts (Key.ofElement element) id = true := by
    simp [accepts, found, Node.hasCanonical, has, texts]
  rw [seen]
  rfl

theorem indifferent_unconfirmed :
    Indifferent { config with confirmCanonicalText := false }
      (Ready { config with confirmCanonicalText := true } (IsKeyOf rules))
      (Asked (IsKeyOf rules)) where
  find?_eq ready asked := find?_unconfirmed apart ready (asked.among _ .self)
  policy_eq ready := by rw [ready.config_eq]
  operands := Asked.operands
  instantiate ready asked := ready.instantiate asked
  addRule ready asks added := ready.addRule asks added

end Unconfirmed

/-- If different texts of the subexpressions of the rules that can be compiled
have different hashes, building the rules without comparing texts has the same
outcome as building them with it: the same error, or the same network but for
this setting, and the same record of what was left out. -/
theorem build_unconfirmed (config : Config) {rules : List Definition}
    (apart : HashesApart ((compilable rules).flatMap fun rule => subexpressions rule.2)) :
    Builder.build { config with confirmCanonicalText := false } rules =
      (Builder.build { config with confirmCanonicalText := true } rules).map fun builder =>
        builder.withConfig { config with confirmCanonicalText := false } :=
  (indifferent_unconfirmed apart).build_withConfig (.ofConfig _ _) fun _ member =>
    asks_of_mem member

/-- The last rule shares a pattern with the first one, and another cannot be compiled. -/
theorem build_unconfirmed_shared :
    let pattern text : Element :=
      { name := "weapon", attributes := [("type", "string")], text := some text }
    let rules := [
      Definition.ofCondition "armed" { name := "or", children := [pattern "axe", pattern "bow"] },
      Definition.ofCondition "broken" { name := "not" },
      Definition.ofCondition "axe" (pattern "axe")]
    let trusting : Config := { invalidRules := .skip, confirmCanonicalText := false }
    HashesApart ((compilable rules).flatMap fun rule => subexpressions rule.2) ∧
      Builder.build trusting rules = (Builder.build { invalidRules := .skip } rules).map
        (fun builder => builder.withConfig trusting) ∧
      (Builder.build trusting rules).toOption.map (fun builder =>
        (builder.network.size, builder.network.rules.map AttachedRule.terminal,
          builder.skipped.map SkippedRule.name)) = some (4, [3, 1], ["broken"]) := by
  intro pattern rules trusting
  have apart : HashesApart ((compilable rules).flatMap fun rule => subexpressions rule.2) := by
    decide +kernel
  exact ⟨apart, build_unconfirmed { invalidRules := .skip } apart, by decide +kernel⟩

end RuleNet.Network
