import RuleNet.Proofs.Network.Settings

/-!
# No node without a rule

A plan is turned into nodes from the operands up, and only then is its rule
attached; a lookup can end this at any depth, and a rejected rule can come in
between. In the end no node is left over: every node but the root is reached from
the terminal of an attached rule along operands (`Reaches`), and has the key of a
subexpression of a rule that was accepted (`History`).

* `Unfolds.reaches_part`: a node reaches nodes for all parts of what it stands for.
* `Covered.addRule`, `History.invariant`: an accepted rule keeps the network covered,
  and so does every sequence of calls.
* `no_orphans`: the result, with the accepted rules of the calls.
-/

namespace RuleNet.Network

open Markup (Element)
open Rule (Definition Key Operator)
open Settings (Config)

/-! ## Following operands -/

/-- The second node is the first one, or is reached from it along operands. -/
inductive Reaches (network : Network) : NodeId → NodeId → Prop
  | self {id : Nat} : Reaches network id id
  | operand {id operand below : Nat} {node : Node} {key : Key} {operator : Operator}
      {operands : List NodeId} :
      network.node? id = some node → node.kind = .join key operator operands →
      operand ∈ operands → Reaches network operand below → Reaches network id below

theorem Reaches.extends {old new : Network} (extension : old.Extends new) {id below : Nat}
    (reaches : old.Reaches id below) : new.Reaches id below := by
  induction reaches with
  | self => exact .self
  | operand found kind member _ ih =>
    obtain ⟨later, there, -⟩ := extension found
    exact .operand there kind member ih

/-- A node reaches nodes for all parts of what it stands for. -/
theorem Unfolds.reaches_part {network : Network} {part plan : Plan} (inside : IsPart part plan)
    {id : Nat} (unfolds : network.Unfolds id plan) :
    ∃ below, network.Unfolds below part ∧ network.Reaches id below := by
  induction inside generalizing id with
  | self => exact ⟨id, unfolds, .self⟩
  | operand member _ ih =>
    cases unfolds with
    | join found kind length each =>
      have paired := List.forall₂_iff_zip.mpr ⟨length, fun member => each _ _ member⟩
      obtain ⟨operand, listed, unfolds⟩ := mem_right_of_forall₂ paired member
      obtain ⟨below, unfolds', reaches⟩ := ih unfolds
      exact ⟨below, unfolds', .operand found kind listed reaches⟩

/-- The nodes that a plan adds to a network are reached from its own node. -/
theorem reaches_instantiate {plan : Plan} (sound : plan.Sound) {network : Network}
    (wf : WellFormed network) (distinct : network.Distinct) {id : Nat}
    (inner : (network.instantiate plan).2.IsInner id) :
    network.IsInner id ∨
      (network.instantiate plan).2.Reaches (network.instantiate plan).1 id := by
  have growth := (instantiate_growth sound wf).1
  have unique := (instantiate_distinct sound wf distinct).1
  obtain ⟨part, unfolds⟩ := exists_unfolds (growth.wellFormed wf) inner
  -- A node for the same plan is the same node.
  rcases instantiate_parts sound wf ⟨id, unfolds⟩ with ⟨old, before⟩ | ⟨own, terminal, inside⟩
  · cases unique (before.extends (growth.extends wf)) unfolds rfl
    exact .inl (before.isInner wf)
  · obtain ⟨below, unfolds', reaches⟩ := terminal.reaches_part inside
    cases unique unfolds' unfolds rfl
    exact .inr reaches

/-! ## Accepted rules -/

/-- The rules of a batch that are accepted, in order. -/
def Builder.accepted : Builder → List Definition → List Definition
  | _, [] => []
  | builder, rule :: rest =>
      match builder.addRule rule with
      | .ok (_, grown) => rule :: grown.accepted rest
      | .error why =>
          match builder.network.config.invalidRules with
          | .failFast => []
          | .skip =>
              Builder.accepted
                { builder with skipped := builder.skipped ++ [⟨rule.name, why⟩] } rest

/-- The builders that calls can lead to, starting with an empty network, and the
rules that were accepted on the way. The calls may fail. -/
inductive History (config : Config) : List Definition → Builder → Prop
  | start : History config [] (.ofConfig config)
  | offer {accepted : List Definition} {builder : Builder} (rule : Definition) :
      History config accepted builder →
      History config (accepted ++ builder.accepted [rule]) (builder.offer rule)
  | addRules {accepted : List Definition} {builder : Builder} (rules : List Definition) :
      History config accepted builder →
      History config (accepted ++ builder.accepted rules) (builder.addRules rules).1

/-- Every builder that calls can lead to has a history. -/
theorem Reachable.exists_history {config : Config} {builder : Builder}
    (reachable : Reachable config builder) : ∃ accepted, History config accepted builder := by
  induction reachable with
  | start => exact ⟨[], .start⟩
  | offer rule _ ih =>
    obtain ⟨accepted, history⟩ := ih
    exact ⟨_, history.offer rule⟩
  | addRules rules _ ih =>
    obtain ⟨accepted, history⟩ := ih
    exact ⟨_, history.addRules rules⟩

/-- What every accepted rule keeps, when it joins the accepted ones, is kept by a batch. -/
theorem Builder.accepted_invariant {I : List Definition → Network → Prop}
    (step : ∀ {accepted : List Definition} {network grown : Network} {rule : Definition}
      {attached : AttachedRule}, network.addRule rule = .ok (attached, grown) →
        I accepted network → I (accepted ++ [rule]) grown)
    {accepted : List Definition} (builder : Builder) (rules : List Definition)
    (start : I accepted builder.network) :
    I (accepted ++ builder.accepted rules) (builder.addRules rules).1.network := by
  induction rules generalizing accepted builder with
  | nil =>
    rw [Builder.accepted, List.append_nil]
    exact start
  | cons rule rest ih =>
    rw [Builder.accepted]
    cases added : builder.addRule rule with
    | ok result =>
      obtain ⟨attached, grown⟩ := result
      obtain ⟨network, inner, rfl⟩ := addRule_eq_ok added
      rw [addRules_of_ok rest added]
      show I (accepted ++ rule :: Builder.accepted { builder with network := network } rest) _
      rw [List.append_cons]
      exact ih { builder with network := network } (step inner start)
    | error why =>
      cases policy : builder.network.config.invalidRules with
      | failFast =>
        rw [addRules_failFast rest added policy, List.append_nil]
        exact start
      | skip =>
        rw [addRules_skip rest added policy]
        exact ih { builder with skipped := builder.skipped ++ [⟨rule.name, why⟩] } start

/-- A rule that is offered changes the network like a batch of this rule. -/
theorem Builder.network_offer (builder : Builder) (rule : Definition) :
    (builder.offer rule).network = (builder.addRules [rule]).1.network := by
  rw [offer]
  cases added : builder.addRule rule with
  | ok result => rw [addRules_of_ok [] added, addRules]
  | error why =>
    cases policy : builder.network.config.invalidRules with
    | failFast => rw [addRules_failFast [] added policy]
    | skip => rw [addRules_skip [] added policy, addRules]

/-- What every accepted rule keeps, when it joins the accepted ones, holds after all calls. -/
theorem History.invariant {I : List Definition → Network → Prop} {config : Config}
    {accepted : List Definition} {builder : Builder} (history : History config accepted builder)
    (start : I [] { config := config })
    (step : ∀ {accepted : List Definition} {network grown : Network} {rule : Definition}
      {attached : AttachedRule}, network.addRule rule = .ok (attached, grown) →
        I accepted network → I (accepted ++ [rule]) grown) :
    I accepted builder.network := by
  induction history with
  | start => exact start
  | offer rule _ ih =>
    rw [Builder.network_offer]
    exact Builder.accepted_invariant step _ [rule] ih
  | addRules rules _ ih => exact Builder.accepted_invariant step _ rules ih

/-! ## Covered networks -/

theorem mem_compilable {rules : List Definition} {rule : Definition} {element : Element}
    (member : (rule, element) ∈ compilable rules) :
    rule ∈ rules ∧ rule.condition = .ok element := by
  obtain ⟨own, inside, paired⟩ := List.mem_filterMap.mp member
  obtain ⟨chosen, compiles, same⟩ := Option.map_eq_some_iff.mp paired
  cases same
  refine ⟨inside, ?_⟩
  rw [compilable?] at compiles
  cases planned : Plan.ofRule rule with
  | error why => rw [planned] at compiles; cases compiles
  | ok plan =>
    obtain ⟨element', chosen, -⟩ := Plan.ofRule_eq_ok planned
    rw [planned, chosen] at compiles
    cases compiles
    exact chosen

theorem IsKeyOf.append {rules : List Definition} {key : Key} (own : IsKeyOf rules key)
    (more : List Definition) : IsKeyOf (rules ++ more) key := by
  obtain ⟨element, inside, same⟩ := own
  refine ⟨element, ?_, same⟩
  rw [compilable, List.filterMap_append, List.flatMap_append]
  exact List.mem_append_left _ inside

/-- The accepted rules are attached in order, every node but the root is reached
from a terminal, and all keys are those of subexpressions of accepted rules. -/
structure Covered (config : Config) (accepted : List Definition) (network : Network) : Prop where
  ready : Ready config (IsKeyOf accepted) network
  distinct : network.Distinct
  attached : List.Forall₂ (fun rule attached => attached.name = rule.name ∧
    attached.action = rule.action) accepted network.rules
  reached : ∀ {id : Nat}, network.IsInner id →
    ∃ attached ∈ network.rules, network.Reaches attached.terminal id

theorem Covered.ofConfig (config : Config) : Covered config [] { config := config } where
  ready := .ofConfig config _
  distinct := fun i _ plan _ unfolds => absurd ⟨i, unfolds⟩ (not_holds_ofConfig config plan)
  attached := .nil
  reached := fun inner => absurd inner.2 (Nat.not_lt.mpr inner.1)

/-- An accepted rule keeps the network covered. -/
theorem Covered.addRule {config : Config} {accepted : List Definition} {network grown : Network}
    {rule : Definition} {attached : AttachedRule}
    (added : network.addRule rule = .ok (attached, grown))
    (covered : Covered config accepted network) : Covered config (accepted ++ [rule]) grown := by
  have wf := covered.ready.wf
  have known : Ready config (IsKeyOf (accepted ++ [rule])) network :=
    { covered.ready with
      among := fun _ _ _ found carried => (covered.ready.among found carried).append [rule] }
  have asks : Asks (Asked (IsKeyOf (accepted ++ [rule]))) rule :=
    asks_of_mem (List.mem_append_right _ List.mem_cons_self)
  have extension := (addRule_growth added wf).extends wf
  have rules := rules_addRule added
  refine ⟨known.addRule asks added, ?distinct, ?attached, ?reached⟩
  all_goals
    obtain ⟨plan, planned, rfl, rfl⟩ := addRule_eq_ok added
    have sound : plan.Sound := (asks plan planned).sound
  case distinct =>
    intro i j _ _ unfolds unfolds'
    exact (instantiate_distinct sound wf covered.distinct).1
      (unfolds_attach.mp unfolds) (unfolds_attach.mp unfolds')
  case attached =>
    rw [rules]
    exact List.rel_append covered.attached (.cons ⟨rfl, rfl⟩ .nil)
  case reached =>
    intro id inner
    rw [rules]
    rcases reaches_instantiate sound wf covered.distinct inner with before | below
    · obtain ⟨earlier, member, reaches⟩ := covered.reached before
      exact ⟨earlier, List.mem_append_left _ member, reaches.extends extension⟩
    · have attaching : (network.instantiate plan).2.Extends ((network.instantiate plan).2.attach
          ⟨rule.name, (network.instantiate plan).1, rule.action⟩) := Extends.refl _
      exact ⟨_, List.mem_append_right _ List.mem_cons_self, below.extends attaching⟩

/-- Whatever calls a builder has seen, whatever their outcome and the settings:
the accepted rules are attached in order. Every node but the root is the terminal
of an attached rule or reached from one along operands, and has the key of a
subexpression of an accepted rule. -/
theorem no_orphans {config : Config} {accepted : List Definition} {builder : Builder}
    (history : History config accepted builder) :
    List.Forall₂ (fun rule attached => attached.name = rule.name ∧
      attached.action = rule.action) accepted builder.network.rules ∧
    ∀ id : Nat, builder.network.IsInner id →
      (∃ attached ∈ builder.network.rules, builder.network.Reaches attached.terminal id) ∧
      ∃ rule ∈ accepted, ∃ element, rule.condition = .ok element ∧
        ∃ part ∈ subexpressions element, ∃ node, builder.network.node? id = some node ∧
          node.key? = some (Key.ofElement part) := by
  have covered : Covered config accepted builder.network :=
    history.invariant (.ofConfig config) Covered.addRule
  refine ⟨covered.attached, fun id inner => ⟨covered.reached inner, ?_⟩⟩
  obtain ⟨plan, unfolds⟩ := exists_unfolds covered.ready.wf inner
  obtain ⟨node, found, carried⟩ := unfolds.exists_key
  obtain ⟨part, inside, same⟩ := covered.ready.among found carried
  obtain ⟨⟨rule, element⟩, listed, below⟩ := List.mem_flatMap.mp inside
  obtain ⟨member, chosen⟩ := mem_compilable listed
  exact ⟨rule, member, element, chosen, part, below, node, found, same ▸ carried⟩

/-- A batch without comparing texts, whose first rule is rejected, and then a rule
that shares a pattern: three nodes are reached from the one terminal, and all of
them from the other. -/
theorem no_orphans_skipping :
    let axe : Element := { name := "axe" }
    let either : Element := { name := "or", children := [axe, { name := "bow" }] }
    let armed := Definition.ofCondition "armed" either
    let unarmed := Definition.ofCondition "unarmed" { name := "not", children := [either] }
    let trusting : Config := { invalidRules := .skip, confirmCanonicalText := false }
    let batch := [Definition.ofCondition "broken" { name := "not" }, armed]
    let builder := (((Builder.ofConfig trusting).addRules batch).1.offer unarmed)
    History trusting [armed, unarmed] builder ∧
      builder.skipped.map SkippedRule.name = ["broken"] ∧
      builder.network.size = 5 ∧ builder.network.rules.map AttachedRule.terminal = [3, 4] ∧
      ∀ id : Nat, builder.network.IsInner id →
        ∃ attached ∈ builder.network.rules, builder.network.Reaches attached.terminal id := by
  intro axe either armed unarmed trusting batch builder
  have history : History trusting [armed, unarmed] builder :=
    .offer unarmed (.addRules batch .start)
  obtain ⟨-, each⟩ := no_orphans history
  exact ⟨history, by decide, by decide, by decide, fun id inner => (each id inner).1⟩

end RuleNet.Network
