import Mathlib.Logic.Relation
import RuleNet.Proofs.Network.WellFormed

/-!
# How networks grow

A network grows by patterns, by joins over nodes it has, and by rules attached
to nodes it has (`Grows`). Whatever a builder does is a sequence of such steps
(`Growth`), so what a single step keeps holds of every network that a builder
can reach.

* `Growth.wellFormed`, `Growth.extends`: growing keeps a network well-formed,
  keeps its nodes in place and only adds new successors to them.
* `instantiate_growth`: turning a sound plan into nodes is growing, and gives
  a node of the grown network.
* `Reachable.growth`: so is any sequence of calls to a builder.
-/

namespace RuleNet.Network

open Rule (Condition Definition Key Operator RuleError)
open Settings (Config)

/-! ## Single steps -/

/-- One step of growing. -/
inductive Grows : Network → Network → Prop
  | pattern {network : Network} {key : Key} {condition : Condition} :
      Genuine key → Grows network (network.addPattern key condition).2
  | join {network : Network} {key : Key} {operator : Operator} {operands : List NodeId} :
      Genuine key → operands.length = operator.arity →
      (∀ operand ∈ operands, network.IsInner operand) →
      Grows network (network.addJoin key operator operands).2
  | attach {network : Network} {rule : AttachedRule} :
      network.IsInner rule.terminal → Grows network (network.attach rule)

/-- A join over one node for each of its operands' plans. -/
theorem Grows.join_of_forall₂ {network : Network} {key : Key} {operator : Operator}
    {ids : List Nat} {operands : List Plan} (genuine : Genuine key)
    (count : operands.length = operator.arity)
    (inner : List.Forall₂ (fun id _ => network.IsInner id) ids operands) :
    Grows network (network.addJoin key operator ids).2 := by
  refine .join genuine (inner.length_eq.trans count) fun id member => ?_
  obtain ⟨_, _, inner⟩ := mem_left_of_forall₂ inner member
  exact inner

/-- Any number of steps. -/
abbrev Growth : Network → Network → Prop := Relation.ReflTransGen Grows

/-- Every node of the old network stays in place and changes only in that new
nodes are added behind its successors. -/
def Extends (old new : Network) : Prop :=
  ∀ ⦃i : Nat⦄ ⦃node : Node⦄, old.node? i = some node →
    ∃ later, new.node? i = some { node with successors := node.successors ++ later } ∧
      ∀ reader : Nat, reader ∈ later → old.size ≤ reader

namespace Extends

theorem refl (network : Network) : network.Extends network := by
  intro i node found
  exact ⟨[], by rw [List.append_nil]; exact found, fun _ member => nomatch member⟩

theorem size_le {old new : Network} (extension : old.Extends new) : old.size ≤ new.size := by
  rcases Nat.eq_zero_or_pos old.size with empty | filled
  · rw [empty]
    exact Nat.zero_le _
  · obtain ⟨node, found⟩ := WellFormed.exists_node (Nat.sub_one_lt_of_lt filled)
    obtain ⟨later, there, -⟩ := extension found
    have inside := WellFormed.lt_size there
    omega

theorem trans {old middle new : Network} (first : old.Extends middle)
    (second : middle.Extends new) : old.Extends new := by
  intro i node found
  obtain ⟨later, there, new'⟩ := first found
  obtain ⟨latest, last, newest⟩ := second there
  refine ⟨later ++ latest, by rw [last, List.append_assoc], fun reader member => ?_⟩
  rcases List.mem_append.mp member with early | late
  · exact new' reader early
  · exact Nat.le_trans first.size_le (newest reader late)

theorem isInner {old new : Network} (extension : old.Extends new) {id : Nat}
    (inner : old.IsInner id) : new.IsInner id :=
  ⟨inner.1, Nat.lt_of_lt_of_le inner.2 extension.size_le⟩

end Extends

/-- A new node is a new successor of its inputs, and changes nothing else. -/
theorem WellFormed.extends_addNode {network : Network} (wf : WellFormed network) (key : Key)
    (kind : NodeKind) (inputs : List NodeId) :
    network.Extends (network.addNode key kind inputs).2 := by
  intro i node found
  rw [node?_addNode, if_neg (Nat.ne_of_lt (lt_size found)), found]
  by_cases read : i ∈ inputs
  · refine ⟨[network.size], ?_, fun reader member => ?_⟩
    · rw [if_pos read, Option.map_some,
        Node.addSuccessor_of_not_mem (wf.size_not_mem_successors found)]
      rfl
    · exact Nat.le_of_eq (List.mem_singleton.mp member).symm
  · refine ⟨[], ?_, fun reader member => nomatch member⟩
    rw [if_neg read, List.append_nil]

variable {old new : Network}

theorem Grows.wellFormed (grows : Grows old new) (wf : WellFormed old) : WellFormed new := by
  cases grows with
  | pattern genuine =>
    rw [wf.addPattern_eq]
    exact wf.addNode_pattern genuine _
  | join genuine count known => exact wf.addNode genuine rfl ⟨rfl, count, known⟩
  | attach inner => exact wf.attach inner

theorem Grows.extends (grows : Grows old new) (wf : WellFormed old) : old.Extends new := by
  cases grows with
  | pattern genuine =>
    rw [wf.addPattern_eq]
    exact wf.extends_addNode _ _ _
  | join genuine count known => exact wf.extends_addNode _ _ _
  | attach inner => exact Extends.refl old

theorem Grows.config_eq (grows : Grows old new) : new.config = old.config := by
  cases grows <;> rfl

/-! ## Any number of steps -/

theorem Growth.wellFormed (growth : Growth old new) (wf : WellFormed old) : WellFormed new := by
  induction growth with
  | refl => exact wf
  | tail _ grows ih => exact grows.wellFormed ih

theorem Growth.extends (growth : Growth old new) (wf : WellFormed old) : old.Extends new := by
  induction growth with
  | refl => exact Extends.refl old
  | tail growth grows ih => exact ih.trans (grows.extends (Growth.wellFormed growth wf))

theorem Growth.config_eq (growth : Growth old new) : new.config = old.config := by
  induction growth with
  | refl => rfl
  | tail _ grows ih => rw [grows.config_eq, ih]

/-! ## Looking up a key -/

/-- What has a key is not the root. -/
theorem WellFormed.isInner_of_key? {network : Network} (wf : WellFormed network) {i : Nat}
    {node : Node} {key : Key} (found : network.node? i = some node)
    (carried : node.key? = some key) : network.IsInner i := by
  refine ⟨?_, lt_size found⟩
  have reads := wf.reads found
  rw [Node.key?] at carried
  cases kind : node.kind with
  | root => rw [kind] at carried; cases carried
  | pattern key condition =>
    rw [kind] at reads
    exact reads.1
  | join key operator operands =>
    rw [kind] at reads
    obtain ⟨-, count, before⟩ := reads
    -- An operator takes an operand, and that one stands between the root and the join.
    cases operands with
    | nil => cases operator <;> cases count
    | cons operand rest =>
      have between := before operand List.mem_cons_self
      exact Nat.lt_trans between.1 between.2

/-- A node at a position that is not inner is a root. -/
theorem WellFormed.kind_of_not_isInner {network : Network} (wf : WellFormed network) {i : Nat}
    {node : Node} (found : network.node? i = some node) (outside : ¬ network.IsInner i) :
    node.kind = .root := by
  cases carried : node.key? with
  | some key => exact absurd (wf.isInner_of_key? found carried) outside
  | none =>
    unfold Node.key? at carried
    split at carried
    · next kind => exact kind
    · cases carried
    · cases carried

theorem mem_hashed {network : Network} {hash : UInt64} {id : Nat} :
    id ∈ network.hashed hash ↔
      ∃ node key, network.node? id = some node ∧ node.key? = some key ∧ key.hash = hash := by
  rw [hashed, List.mem_filter, List.mem_range, Option.any_eq_true]
  constructor
  · rintro ⟨-, node, found, some⟩
    obtain ⟨key, carried, same⟩ := (Option.any_eq_true _ _).mp some
    exact ⟨node, key, found, carried, eq_of_beq same⟩
  · rintro ⟨node, key, found, carried, same⟩
    refine ⟨WellFormed.lt_size found, node, found, (Option.any_eq_true _ _).mpr ⟨key, carried, ?_⟩⟩
    rw [same, beq_self_eq_true]

/-- What is found for a key is a node with a key. -/
theorem WellFormed.isInner_of_find? {network : Network} (wf : WellFormed network) {key : Key}
    {id : Nat} (found : network.find? key = some id) : network.IsInner id := by
  have member : id ∈ network.hashed key.hash := by
    rw [← wf.candidates_eq]
    exact List.mem_of_find?_eq_some found
  obtain ⟨node, own, there, carried, -⟩ := mem_hashed.mp member
  exact wf.isInner_of_key? there carried

/-- When texts are compared, what is found for a key has this key. -/
theorem WellFormed.key?_of_find? {network : Network} (wf : WellFormed network)
    (confirm : network.config.confirmCanonicalText = true) {key : Key} (genuine : Genuine key)
    {id : Nat} (found : network.find? key = some id) :
    ∃ node, network.node? id = some node ∧ node.key? = some key := by
  have accepted : network.accepts key id = true := List.find?_some found
  rw [accepts, confirm, Bool.not_true, Bool.false_or, Option.any_eq_true] at accepted
  obtain ⟨node, there, texts⟩ := accepted
  obtain ⟨own, carried, same⟩ := (Option.any_eq_true _ _).mp texts
  refine ⟨node, there, ?_⟩
  rw [carried, (wf.genuine there carried).ext genuine (eq_of_beq same)]

/-- A key that a node has is found. -/
theorem WellFormed.find?_isSome {network : Network} (wf : WellFormed network) {i : Nat}
    {node : Node} {key : Key} (found : network.node? i = some node)
    (carried : node.key? = some key) : ∃ id, network.find? key = some id := by
  rw [← Option.isSome_iff_exists, find?, List.find?_isSome, wf.candidates_eq]
  refine ⟨i, mem_hashed.mpr ⟨node, key, found, carried, rfl⟩, ?_⟩
  have same : node.hasCanonical key.canonical = true := by
    rw [Node.hasCanonical, carried]
    exact beq_self_eq_true key.canonical
  have known : (network.node? i).any (fun node => node.hasCanonical key.canonical) = true := by
    rw [found]
    exact same
  rw [accepts, known, Bool.or_true]

/-! ## Turning plans into nodes -/

theorem isInner_last (network : Network) (key : Key) (kind : NodeKind) (inputs : List NodeId)
    (nonempty : 0 < network.size) :
    (network.addNode key kind inputs).2.IsInner (network.addNode key kind inputs).1 :=
  ⟨nonempty, by rw [size_addNode]; exact Nat.lt_succ_self _⟩

/-- A well-formed network gets a pattern whose key it does not know as any other node. -/
theorem WellFormed.instantiate_pattern {network : Network} (wf : WellFormed network) {key : Key}
    {condition : Condition} (new : network.find? key = none) :
    network.instantiate (.pattern key condition) =
      network.addNode key (.pattern key condition) [rootId] :=
  (Network.instantiate_pattern new).trans (wf.addPattern_eq key condition)

/-- What every plan of a list keeps is kept by the list, and what every plan says
about its node still holds in the end, if the plans after it leave it so. -/
theorem instantiateAll_invariant {I : Network → Prop} {Q : Network → Nat → Plan → Prop}
    {plans : List Plan}
    (each : ∀ plan ∈ plans, ∀ network : Network, I network →
      I (network.instantiate plan).2 ∧
        Q (network.instantiate plan).2 (network.instantiate plan).1 plan)
    (stays : ∀ plan ∈ plans, ∀ (network : Network) (id : Nat) (earlier : Plan), I network →
      Q network id earlier → Q (network.instantiate plan).2 id earlier)
    {network : Network} (start : I network) :
    I (network.instantiateAll plans).2 ∧
      List.Forall₂ (Q (network.instantiateAll plans).2) (network.instantiateAll plans).1 plans ∧
      ∀ (id : Nat) (earlier : Plan), Q network id earlier →
        Q (network.instantiateAll plans).2 id earlier := by
  induction plans generalizing network with
  | nil => exact ⟨start, .nil, fun _ _ held => held⟩
  | cons plan rest ih =>
    obtain ⟨kept, first⟩ := each plan List.mem_cons_self network start
    obtain ⟨keptAll, others, still⟩ :=
      ih (fun plan member => each plan (List.mem_cons_of_mem _ member))
        (fun plan member => stays plan (List.mem_cons_of_mem _ member)) kept
    rw [instantiateAll_cons]
    exact ⟨keptAll, .cons (still _ _ first) others, fun id earlier held =>
      still id earlier (stays plan List.mem_cons_self network id earlier start held)⟩

/-- What every new pattern and every new join keeps is kept when a plan is turned into
nodes. The nodes are made for the plan and for operands of it. -/
theorem instantiate_invariant {I : Network → Prop} {P : Plan → Prop}
    (pattern : ∀ {network : Network} {key : Key} {condition : Condition},
      I network → P (.pattern key condition) → I (network.addPattern key condition).2)
    (join : ∀ {network : Network} {key : Key} {operator : Operator} {operands : List Plan}
      {ids : List NodeId},
      I network → P (.join key operator operands) → I (network.addJoin key operator ids).2)
    (operands : ∀ {key : Key} {operator : Operator} {operands : List Plan},
      P (.join key operator operands) → ∀ operand ∈ operands, P operand)
    {plan : Plan} (asked : P plan) {network : Network} (start : I network) :
    I (network.instantiate plan).2 := by
  induction plan using Plan.induction generalizing network with
  | onPattern key condition =>
    rw [instantiate]
    cases network.find? key with
    | some id => exact start
    | none => exact pattern start asked
  | onJoin key operator plans ih =>
    obtain ⟨kept, -⟩ := instantiateAll_invariant (I := I) (Q := fun _ _ _ => True)
      (fun plan member middle kept => ⟨ih plan member (operands asked plan member) kept, trivial⟩)
      (fun _ _ _ _ _ _ _ => trivial) start
    rw [instantiate]
    cases network.find? key with
    | some id => exact start
    | none => exact join kept asked

/-- Turning a plan into nodes attaches no rule. -/
theorem rules_instantiate (plan : Plan) (network : Network) :
    (network.instantiate plan).2.rules = network.rules :=
  instantiate_invariant (I := fun grown => grown.rules = network.rules) (P := fun _ => True)
    (fun same _ => same) (fun same _ => same) (fun _ _ _ => trivial) trivial rfl

/-- Turning a plan into nodes leaves the settings as they are. -/
theorem config_instantiate (plan : Plan) (network : Network) :
    (network.instantiate plan).2.config = network.config :=
  instantiate_invariant (I := fun grown => grown.config = network.config) (P := fun _ => True)
    (fun same _ => same) (fun same _ => same) (fun _ _ _ => trivial) trivial rfl

/-- A sound plan grows the network, and leads to a node of the grown network. -/
theorem instantiate_growth {plan : Plan} (sound : plan.Sound) {network : Network}
    (wf : WellFormed network) :
    Growth network (network.instantiate plan).2 ∧
      (network.instantiate plan).2.IsInner (network.instantiate plan).1 := by
  induction sound generalizing network with
  | @pattern key condition genuine =>
    cases found : network.find? key with
    | some id =>
      rw [instantiate_of_find? (.pattern key condition) found]
      exact ⟨.refl, wf.isInner_of_find? found⟩
    | none =>
      rw [instantiate_pattern found]
      refine ⟨.single (.pattern genuine), ?_⟩
      rw [wf.addPattern_eq]
      exact isInner_last _ _ _ _ wf.nonempty
  | @join key operator operands genuine count shorter sound ih =>
    cases found : network.find? key with
    | some id =>
      rw [instantiate_of_find? (.join key operator operands) found]
      exact ⟨.refl, wf.isInner_of_find? found⟩
    | none =>
      obtain ⟨⟨growth, grown⟩, inner, -⟩ := instantiateAll_invariant
        (I := fun middle => Growth network middle ∧ WellFormed middle)
        (Q := fun middle id _ => middle.IsInner id)
        (fun operand member middle kept =>
          have ⟨growth, inner⟩ := ih operand member kept.2
          ⟨⟨kept.1.trans growth, growth.wellFormed kept.2⟩, inner⟩)
        (fun operand member middle id _ kept inner =>
          ((ih operand member kept.2).1.extends kept.2).isInner inner)
        ⟨.refl, wf⟩
      rw [instantiate_join found]
      exact ⟨growth.tail (.join_of_forall₂ genuine count inner),
        isInner_last _ _ _ _ grown.nonempty⟩

/-- The same for sound plans, and for what further growing does not change about a node. -/
theorem instantiateAll_growth {I : Network → Prop} {Q : Network → Nat → Plan → Prop}
    {plans : List Plan} (sound : ∀ plan ∈ plans, plan.Sound) {network : Network}
    (wf : WellFormed network)
    (each : ∀ plan ∈ plans, ∀ middle : Network, Growth network middle → WellFormed middle →
      I middle → I (middle.instantiate plan).2 ∧
        Q (middle.instantiate plan).2 (middle.instantiate plan).1 plan)
    (stays : ∀ {old new : Network} {id : Nat} {plan : Plan}, old.Extends new →
      Q old id plan → Q new id plan)
    (start : I network) :
    Growth network (network.instantiateAll plans).2 ∧
      WellFormed (network.instantiateAll plans).2 ∧ I (network.instantiateAll plans).2 ∧
      List.Forall₂ (Q (network.instantiateAll plans).2) (network.instantiateAll plans).1 plans := by
  obtain ⟨⟨growth, kept⟩, paired, -⟩ := instantiateAll_invariant
    (I := fun middle => Growth network middle ∧ I middle) (Q := Q)
    (fun plan member middle ⟨growth, kept⟩ =>
      have grown := growth.wellFormed wf
      have ⟨kept', first⟩ := each plan member middle growth grown kept
      ⟨⟨growth.trans (instantiate_growth (sound plan member) grown).1, kept'⟩, first⟩)
    (fun plan member middle id _ ⟨growth, _⟩ =>
      have grown := growth.wellFormed wf
      stays ((instantiate_growth (sound plan member) grown).1.extends grown))
    ⟨.refl, start⟩
  exact ⟨growth, growth.wellFormed wf, kept, paired⟩

theorem instantiateAll_inner {plans : List Plan} (sound : ∀ plan ∈ plans, plan.Sound)
    {network : Network} (wf : WellFormed network) :
    Growth network (network.instantiateAll plans).2 ∧
      WellFormed (network.instantiateAll plans).2 ∧
      List.Forall₂ (fun id _ => (network.instantiateAll plans).2.IsInner id)
        (network.instantiateAll plans).1 plans := by
  obtain ⟨growth, grown, -, inner⟩ := instantiateAll_growth (I := fun _ => True)
    (Q := fun middle id _ => middle.IsInner id) sound wf
    (fun plan member middle _ wf' _ => ⟨trivial, (instantiate_growth (sound plan member) wf').2⟩)
    (fun extension inner => extension.isInner inner) trivial
  exact ⟨growth, grown, inner⟩

/-! ## Calls to a builder -/

theorem Plan.ofRule_eq_ok {rule : Definition} {plan : Plan}
    (planned : Plan.ofRule rule = .ok plan) :
    ∃ element, rule.condition = .ok element ∧ Plan.ofElement element = .ok plan := by
  rw [Plan.ofRule] at planned
  cases chosen : rule.condition with
  | error why => rw [chosen] at planned; cases planned
  | ok element =>
    rw [chosen] at planned
    cases made : Plan.ofElement element with
    | error why =>
      simp only [Except.bind, made, Except.mapError] at planned
      cases planned
    | ok plan' =>
      simp only [Except.bind, made, Except.mapError] at planned
      cases planned
      exact ⟨element, rfl, made⟩

/-- A rule is accepted when it has a plan, whatever the network. -/
theorem addRule_eq_ok {network grown : Network} {rule : Definition} {attached : AttachedRule}
    (added : network.addRule rule = .ok (attached, grown)) :
    ∃ plan, Plan.ofRule rule = .ok plan ∧
      attached = ⟨rule.name, (network.instantiate plan).1, rule.action⟩ ∧
      grown = (network.instantiate plan).2.attach attached := by
  rw [addRule] at added
  cases planned : Plan.ofRule rule with
  | error why => rw [planned] at added; cases added
  | ok plan =>
    rw [planned] at added
    cases added
    exact ⟨plan, rfl, rfl, rfl⟩

/-- Adding a rule leaves the settings as they are. -/
theorem config_addRule {network grown : Network} {rule : Definition} {attached : AttachedRule}
    (added : network.addRule rule = .ok (attached, grown)) : grown.config = network.config := by
  obtain ⟨plan, -, rfl, rfl⟩ := addRule_eq_ok added
  exact config_instantiate plan network

/-- An accepted rule is attached behind the others. -/
theorem rules_addRule {network grown : Network} {rule : Definition} {attached : AttachedRule}
    (added : network.addRule rule = .ok (attached, grown)) :
    grown.rules = network.rules ++ [attached] := by
  obtain ⟨plan, -, rfl, rfl⟩ := addRule_eq_ok added
  rw [attach, rules_instantiate]

theorem addRule_growth {network grown : Network} {rule : Definition} {attached : AttachedRule}
    (added : network.addRule rule = .ok (attached, grown)) (wf : WellFormed network) :
    Growth network grown := by
  obtain ⟨plan, planned, rfl, rfl⟩ := addRule_eq_ok added
  obtain ⟨element, -, made⟩ := Plan.ofRule_eq_ok planned
  obtain ⟨growth, inner⟩ := instantiate_growth (Plan.sound_of_ofElement made) wf
  exact growth.tail (.attach inner)

namespace Builder

/-- The builder after a rule was offered to it, accepted or not. -/
def offer (builder : Builder) (rule : Definition) : Builder :=
  match builder.addRule rule with
  | .ok (_, grown) => grown
  | .error _ => builder

theorem addRule_eq_ok {builder grown : Builder} {rule : Definition} {attached : AttachedRule}
    (added : builder.addRule rule = .ok (attached, grown)) :
    ∃ network, builder.network.addRule rule = .ok (attached, network) ∧
      grown = { builder with network := network } := by
  rw [addRule] at added
  cases inner : builder.network.addRule rule with
  | error why => rw [inner] at added; cases added
  | ok result =>
    rw [inner] at added
    cases added
    exact ⟨result.2, rfl, rfl⟩

/-- What an accepted rule keeps is kept when a rule is offered. -/
theorem offer_invariant {I : Network → Prop}
    (step : ∀ {network grown : Network} {rule : Definition} {attached : AttachedRule},
      network.addRule rule = .ok (attached, grown) → I network → I grown)
    (builder : Builder) (rule : Definition) (start : I builder.network) :
    I (builder.offer rule).network := by
  rw [offer]
  cases added : builder.addRule rule with
  | error why => exact start
  | ok result =>
    obtain ⟨attached, grown⟩ := result
    obtain ⟨network, inner, rfl⟩ := addRule_eq_ok added
    exact step inner start

/-- What an accepted rule keeps is kept by a batch. -/
theorem addRules_invariant {I : Network → Prop}
    (step : ∀ {network grown : Network} {rule : Definition} {attached : AttachedRule},
      network.addRule rule = .ok (attached, grown) → I network → I grown)
    (builder : Builder) (rules : List Definition) (start : I builder.network) :
    I (builder.addRules rules).1.network := by
  induction rules generalizing builder with
  | nil => exact start
  | cons rule rest ih =>
    cases added : builder.addRule rule with
    | ok result =>
      obtain ⟨attached, grown⟩ := result
      rw [addRules_of_ok rest added]
      obtain ⟨network, inner, rfl⟩ := addRule_eq_ok added
      exact ih { builder with network := network } (step inner start)
    | error why =>
      cases policy : builder.network.config.invalidRules with
      | failFast =>
        rw [addRules_failFast rest added policy]
        exact start
      | skip =>
        rw [addRules_skip rest added policy]
        exact ih { builder with skipped := builder.skipped ++ [⟨rule.name, why⟩] } start

end Builder

/-- The builders that calls can lead to, starting with an empty network. The
calls may fail. -/
inductive Reachable (config : Config) : Builder → Prop
  | start : Reachable config (.ofConfig config)
  | offer {builder : Builder} (rule : Definition) :
      Reachable config builder → Reachable config (builder.offer rule)
  | addRules {builder : Builder} (rules : List Definition) :
      Reachable config builder → Reachable config (builder.addRules rules).1

namespace Reachable

variable {config : Config} {builder : Builder}

theorem addRule (reachable : Reachable config builder) {rule : Definition}
    {attached : AttachedRule} {grown : Builder}
    (added : builder.addRule rule = .ok (attached, grown)) : Reachable config grown := by
  have offered := reachable.offer rule
  rwa [Builder.offer, added] at offered

/-- What an empty network has and an accepted rule keeps holds whatever the calls. -/
theorem invariant {I : Network → Prop} (reachable : Reachable config builder)
    (start : I { config := config })
    (step : ∀ {network grown : Network} {rule : Definition} {attached : AttachedRule},
      network.addRule rule = .ok (attached, grown) → I network → I grown) :
    I builder.network := by
  induction reachable with
  | start => exact start
  | offer rule _ ih => exact Builder.offer_invariant step _ rule ih
  | addRules rules _ ih => exact Builder.addRules_invariant step _ rules ih

/-- What a builder does is growing. -/
theorem growth (reachable : Reachable config builder) :
    Growth { config := config } builder.network :=
  reachable.invariant .refl fun added growth =>
    growth.trans (addRule_growth added (growth.wellFormed (.ofConfig config)))

theorem wellFormed (reachable : Reachable config builder) : WellFormed builder.network :=
  reachable.growth.wellFormed (.ofConfig config)

theorem config_eq (reachable : Reachable config builder) : builder.network.config = config :=
  reachable.growth.config_eq

end Reachable

end RuleNet.Network
