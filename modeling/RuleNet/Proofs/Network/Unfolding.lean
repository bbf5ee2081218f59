import RuleNet.Proofs.Network.Growth

/-!
# Unfolding a shared network

A node stands for a plan: a pattern for its condition, a join for the operator
over what its operands stand for. Sharing makes several parents use one node,
so a network is smaller than the plans it stands for; `Unfolds` undoes this.

* `exists_unfolds`, `Unfolds.unique`: every node but the root stands for exactly
  one plan, and growing does not change it (`Extends.unfolds_iff`).
* `instantiate_distinct`: when texts are compared, no two nodes of a network
  ever get the same key.
* `instantiate_parts`: all that a plan adds to a network is part of what its
  node stands for.
-/

namespace RuleNet.Network

open Rule (Condition Key Operator)
open Settings (Config)

/-! ## What a node stands for -/

/-- The node stands for the plan. -/
inductive Unfolds (network : Network) : Nat → Plan → Prop
  | pattern {id : Nat} {node : Node} {key : Key} {condition : Condition} :
      network.node? id = some node → node.kind = .pattern key condition →
      Unfolds network id (.pattern key condition)
  | join {id : Nat} {node : Node} {key : Key} {operator : Operator} {operands : List NodeId}
      {plans : List Plan} :
      network.node? id = some node → node.kind = .join key operator operands →
      operands.length = plans.length →
      (∀ (operand : Nat) (plan : Plan), (operand, plan) ∈ operands.zip plans →
        Unfolds network operand plan) →
      Unfolds network id (.join key operator plans)

/-- The plan is what some node stands for. -/
def Holds (network : Network) (plan : Plan) : Prop := ∃ id, network.Unfolds id plan

namespace Unfolds

variable {network : Network}

theorem join_of_forall₂ {id : Nat} {node : Node} {key : Key} {operator : Operator}
    {operands : List NodeId} {plans : List Plan} (found : network.node? id = some node)
    (kind : node.kind = .join key operator operands)
    (paired : List.Forall₂ network.Unfolds operands plans) :
    network.Unfolds id (.join key operator plans) :=
  .join found kind paired.length_eq fun _ _ member => List.forall₂_zip paired member

/-- What a pattern node stands for. -/
theorem pattern_inv {id : Nat} {node : Node} {key : Key} {condition : Condition} {plan : Plan}
    (unfolds : network.Unfolds id plan) (found : network.node? id = some node)
    (kind : node.kind = .pattern key condition) : plan = .pattern key condition := by
  cases unfolds with
  | pattern there kind' =>
    cases found.symm.trans there
    cases kind.symm.trans kind'
    rfl
  | join there kind' _ _ =>
    cases found.symm.trans there
    cases kind.symm.trans kind'

/-- What a join node stands for. -/
theorem join_inv {id : Nat} {node : Node} {key : Key} {operator : Operator}
    {operands : List NodeId} {plan : Plan} (unfolds : network.Unfolds id plan)
    (found : network.node? id = some node) (kind : node.kind = .join key operator operands) :
    ∃ plans, plan = .join key operator plans ∧ List.Forall₂ network.Unfolds operands plans := by
  cases unfolds with
  | pattern there kind' =>
    cases found.symm.trans there
    cases kind.symm.trans kind'
  | join there kind' length each =>
    cases found.symm.trans there
    cases kind.symm.trans kind'
    exact ⟨_, rfl, List.forall₂_iff_zip.mpr ⟨length, fun member => each _ _ member⟩⟩

/-- A node stands for at most one plan. -/
theorem unique {id : Nat} {plan other : Plan} (unfolds : network.Unfolds id plan)
    (unfolds' : network.Unfolds id other) : plan = other := by
  -- Induction on one of the two; the other is read off the same node.
  induction unfolds generalizing other with
  | pattern found kind => exact (unfolds'.pattern_inv found kind).symm
  | @join id node key operator operands plans found kind length each ih =>
    obtain ⟨plans', rfl, paired⟩ := unfolds'.join_inv found kind
    have same : plans = plans' := by
      refine List.ext_getElem (length.symm.trans paired.length_eq) fun i inside inside' => ?_
      have operand : i < operands.length := length ▸ inside
      exact ih operands[i] plans[i] (List.mem_iff_getElem.mpr
        ⟨i, by rw [List.length_zip]; omega, List.getElem_zip⟩) (paired.get operand inside')
    rw [same]

/-- The node has the key of the plan. -/
theorem exists_key {id : Nat} {plan : Plan} (unfolds : network.Unfolds id plan) :
    ∃ node, network.node? id = some node ∧ node.key? = some plan.key := by
  cases unfolds with
  | @pattern _ node _ _ found kind => exact ⟨node, found, by rw [Node.key?, kind]; rfl⟩
  | @join _ node _ _ _ _ found kind _ _ => exact ⟨node, found, by rw [Node.key?, kind]; rfl⟩

theorem isInner {id : Nat} {plan : Plan} (unfolds : network.Unfolds id plan)
    (wf : WellFormed network) : network.IsInner id := by
  obtain ⟨node, found, carried⟩ := unfolds.exists_key
  exact wf.isInner_of_key? found carried

theorem genuine {id : Nat} {plan : Plan} (unfolds : network.Unfolds id plan)
    (wf : WellFormed network) : Genuine plan.key := by
  obtain ⟨node, found, carried⟩ := unfolds.exists_key
  exact wf.genuine found carried

end Unfolds

/-- Every node but the root stands for a plan. -/
theorem exists_unfolds {network : Network} (wf : WellFormed network) {id : Nat}
    (inner : network.IsInner id) : ∃ plan, network.Unfolds id plan := by
  induction id using Nat.strongRecOn with
  | ind id ih =>
    obtain ⟨node, found⟩ := WellFormed.exists_node inner.2
    have reads := wf.reads found
    cases kind : node.kind with
    | root =>
      rw [kind] at reads
      exact absurd reads.1 (Nat.ne_of_gt inner.1)
    | pattern key condition => exact ⟨_, .pattern found kind⟩
    | join key operator operands =>
      rw [kind] at reads
      have each : ∀ operand ∈ operands, ∃ plan, network.Unfolds operand plan := by
        intro operand member
        obtain ⟨positive, before⟩ := reads.2.2 operand member
        exact ih operand before ⟨positive, Nat.lt_trans before inner.2⟩
      obtain ⟨plans, paired⟩ := exists_forall₂ each
      exact ⟨_, .join_of_forall₂ found kind paired⟩

/-- The root stands for nothing. -/
theorem not_holds_ofConfig (config : Config) (plan : Plan) :
    ¬ ({ config := config } : Network).Holds plan := by
  rintro ⟨id, unfolds⟩
  have inner := unfolds.isInner (.ofConfig config)
  exact absurd inner.2 (Nat.not_lt.mpr inner.1)

/-! ## Growing keeps what nodes stand for -/

section Growing

variable {old new : Network}

theorem Unfolds.extends (extension : old.Extends new) {id : Nat} {plan : Plan}
    (unfolds : old.Unfolds id plan) : new.Unfolds id plan := by
  induction unfolds with
  | pattern found kind =>
    obtain ⟨later, there, -⟩ := extension found
    exact .pattern there kind
  | join found kind length each ih =>
    obtain ⟨later, there, -⟩ := extension found
    exact .join there kind length ih

/-- An old node stands for the same plan in both networks. -/
theorem Extends.unfolds_iff (extension : old.Extends new) (wf : WellFormed old) {id : Nat}
    {plan : Plan} (inner : old.IsInner id) : new.Unfolds id plan ↔ old.Unfolds id plan := by
  refine ⟨fun unfolds => ?_, Unfolds.extends extension⟩
  obtain ⟨own, unfolds'⟩ := exists_unfolds wf inner
  rwa [unfolds.unique (unfolds'.extends extension)]

theorem Holds.extends (extension : old.Extends new) {plan : Plan} (holds : old.Holds plan) :
    new.Holds plan := by
  obtain ⟨id, unfolds⟩ := holds
  exact ⟨id, unfolds.extends extension⟩

end Growing

/-- After a node was added, every node but the last one was there before. -/
theorem unfolds_addNode_inv {network : Network} (wf : WellFormed network) {key : Key}
    {kind : NodeKind} {inputs : List NodeId}
    (grown : WellFormed (network.addNode key kind inputs).2) {id : Nat} {plan : Plan}
    (unfolds : (network.addNode key kind inputs).2.Unfolds id plan) :
    network.Unfolds id plan ∨ id = (network.addNode key kind inputs).1 := by
  have extension := wf.extends_addNode key kind inputs
  obtain ⟨positive, inside⟩ := unfolds.isInner grown
  rw [size_addNode] at inside
  rcases Nat.lt_or_eq_of_le (Nat.le_of_lt_succ inside) with before | last
  · exact .inl ((extension.unfolds_iff wf ⟨positive, before⟩).mp unfolds)
  · exact .inr last

theorem holds_addNode {network : Network} (wf : WellFormed network) {key : Key} {kind : NodeKind}
    {inputs : List NodeId} (grown : WellFormed (network.addNode key kind inputs).2) {plan : Plan}
    (holds : (network.addNode key kind inputs).2.Holds plan) :
    network.Holds plan ∨
      (network.addNode key kind inputs).2.Unfolds (network.addNode key kind inputs).1 plan := by
  obtain ⟨id, unfolds⟩ := holds
  rcases unfolds_addNode_inv wf grown unfolds with before | last
  · exact .inl ⟨id, before⟩
  · rw [last] at unfolds
    exact .inr unfolds

/-- The node that is added last. -/
theorem node?_addNode_last (network : Network) (key : Key) (kind : NodeKind)
    (inputs : List NodeId) :
    (network.addNode key kind inputs).2.node? (network.addNode key kind inputs).1 =
      some { id := network.size, kind := kind, predecessors := inputs } := by
  rw [node?_addNode, addNode, size, if_pos rfl]

/-- A node that carries a key stands for a plan with this key. -/
theorem key_of_unfolds_last {network : Network} {key : Key} {kind : NodeKind}
    {inputs : List NodeId} {plan : Plan}
    (carries : { id := network.size, kind := kind, predecessors := inputs : Node }.key? = some key)
    (unfolds : (network.addNode key kind inputs).2.Unfolds
      (network.addNode key kind inputs).1 plan) : plan.key = key := by
  obtain ⟨node, found, carried⟩ := unfolds.exists_key
  cases (node?_addNode_last network key kind inputs).symm.trans found
  exact Option.some.inj (carried.symm.trans carries)

theorem unfolds_addNode_pattern (network : Network) (key : Key) (condition : Condition) :
    (network.addNode key (.pattern key condition) [rootId]).2.Unfolds
      (network.addNode key (.pattern key condition) [rootId]).1 (.pattern key condition) :=
  .pattern (node?_addNode_last network key _ _) rfl

theorem unfolds_addJoin {network : Network} (wf : WellFormed network) {key : Key}
    {operator : Operator} {operands : List NodeId} {plans : List Plan}
    (paired : List.Forall₂ network.Unfolds operands plans) :
    (network.addJoin key operator operands).2.Unfolds (network.addJoin key operator operands).1
      (.join key operator plans) := by
  have extension := wf.extends_addNode key (.join key operator operands) operands
  exact .join_of_forall₂ (node?_addNode_last network key _ _) rfl
    (forall₂_of_mem paired fun _ _ _ _ unfolds => unfolds.extends extension)

theorem wellFormed_addJoin {network : Network} (wf : WellFormed network) {key : Key}
    (genuine : Genuine key) {operator : Operator} {operands : List Nat} {plans : List Plan}
    (count : plans.length = operator.arity)
    (paired : List.Forall₂ network.Unfolds operands plans) :
    WellFormed (network.addJoin key operator operands).2 := by
  have inner := forall₂_of_mem paired fun _ _ _ _ unfolds => unfolds.isInner wf
  exact (Grows.join_of_forall₂ genuine count inner).wellFormed wf

/-! ## Looking up what is there -/

section Lookup

variable {network : Network} (wf : WellFormed network)
include wf

/-- When texts are compared, what is found for a key stands for a plan with this key. -/
theorem unfolds_of_find? (confirm : network.config.confirmCanonicalText = true) {key : Key}
    (genuine : Genuine key) {id : Nat} (found : network.find? key = some id) :
    ∃ plan, network.Unfolds id plan ∧ plan.key = key := by
  obtain ⟨node, there, carried⟩ := wf.key?_of_find? confirm genuine found
  obtain ⟨plan, unfolds⟩ := exists_unfolds wf (wf.isInner_of_key? there carried)
  obtain ⟨node', there', carried'⟩ := unfolds.exists_key
  cases there.symm.trans there'
  exact ⟨plan, unfolds, Option.some.inj (carried'.symm.trans carried)⟩

/-- The key of a plan that the network holds is found. -/
theorem find?_of_holds {plan : Plan} (holds : network.Holds plan) :
    ∃ id, network.find? plan.key = some id := by
  obtain ⟨id, unfolds⟩ := holds
  obtain ⟨node, there, carried⟩ := unfolds.exists_key
  exact wf.find?_isSome there carried

theorem key_ne_of_find?_eq_none {key : Key} (new : network.find? key = none) {plan : Plan}
    (holds : network.Holds plan) : plan.key ≠ key := by
  rintro rfl
  obtain ⟨id, found⟩ := find?_of_holds wf holds
  rw [new] at found
  cases found

end Lookup

/-- A plan leads to a node that stands for a plan with its key. -/
theorem unfolds_instantiate {plan : Plan} (sound : plan.Sound) {network : Network}
    (wf : WellFormed network) (confirm : network.config.confirmCanonicalText = true) :
    ∃ own, (network.instantiate plan).2.Unfolds (network.instantiate plan).1 own ∧
      own.key = plan.key := by
  obtain ⟨growth, inner⟩ := instantiate_growth sound wf
  obtain ⟨own, unfolds⟩ := exists_unfolds (growth.wellFormed wf) inner
  refine ⟨own, unfolds, ?_⟩
  cases found : network.find? plan.key with
  | some id =>
    obtain ⟨own', unfolds', key⟩ := unfolds_of_find? wf confirm sound.genuine found
    rw [instantiate_of_find? plan found] at unfolds
    rw [unfolds.unique unfolds', key]
  | none =>
    cases plan with
    | pattern key condition =>
      rw [Plan.key] at found
      rw [wf.instantiate_pattern found] at unfolds
      exact key_of_unfolds_last rfl unfolds
    | join key operator operands =>
      rw [Plan.key] at found
      rw [instantiate_join found] at unfolds
      exact key_of_unfolds_last rfl unfolds

/-! ## Distinct keys -/

/-- Nodes that stand for plans with one key are one node. -/
def Distinct (network : Network) : Prop :=
  ∀ ⦃i j : Nat⦄ ⦃plan other : Plan⦄, network.Unfolds i plan → network.Unfolds j other →
    plan.key = other.key → i = j

theorem Distinct.eq_of_key {network : Network} (distinct : network.Distinct) {plan other : Plan}
    (holds : network.Holds plan) (holds' : network.Holds other) (same : plan.key = other.key) :
    plan = other := by
  obtain ⟨i, unfolds⟩ := holds
  obtain ⟨j, unfolds'⟩ := holds'
  cases distinct unfolds unfolds' same
  exact unfolds.unique unfolds'

/-- Adding a node with a new key keeps keys distinct. -/
theorem Distinct.addNode {network : Network} (distinct : network.Distinct)
    (wf : WellFormed network) {key : Key} {kind : NodeKind} {inputs : List NodeId}
    (grown : WellFormed (network.addNode key kind inputs).2) {added : Plan}
    (last : (network.addNode key kind inputs).2.Unfolds (network.addNode key kind inputs).1 added)
    (new : ∀ plan, network.Holds plan → plan.key ≠ added.key) :
    (network.addNode key kind inputs).2.Distinct := by
  intro i j plan other unfolds unfolds' same
  rcases unfolds_addNode_inv wf grown unfolds with old | here
  · rcases unfolds_addNode_inv wf grown unfolds' with old' | there
    · exact distinct old old' same
    · rw [there] at unfolds'
      exact absurd (unfolds'.unique last ▸ same) (new plan ⟨i, old⟩)
  · rcases unfolds_addNode_inv wf grown unfolds' with old' | there
    · rw [here] at unfolds
      exact absurd (unfolds.unique last ▸ same.symm) (new other ⟨j, old'⟩)
    · rw [here, there]

/-- A sound plan keeps keys distinct: what it adds besides its own node has
shorter texts than its own. -/
theorem instantiate_distinct {plan : Plan} (sound : plan.Sound) {network : Network}
    (wf : WellFormed network) (distinct : network.Distinct) :
    (network.instantiate plan).2.Distinct ∧
      ∀ added, (network.instantiate plan).2.Holds added →
        network.Holds added ∨ added.key.canonical.length ≤ plan.key.canonical.length := by
  induction sound generalizing network with
  | @pattern key condition genuine =>
    cases found : network.find? key with
    | some id =>
      rw [instantiate_of_find? (.pattern key condition) found]
      exact ⟨distinct, fun _ holds => .inl holds⟩
    | none =>
      have grown := wf.addNode_pattern genuine condition
      have last := unfolds_addNode_pattern network key condition
      rw [wf.instantiate_pattern found]
      refine ⟨distinct.addNode wf grown last fun plan => key_ne_of_find?_eq_none wf found, ?_⟩
      intro added holds
      rcases holds_addNode wf grown holds with before | unfolds
      · exact .inl before
      · rw [unfolds.unique last]
        exact .inr (Nat.le_refl _)
  | @join key operator operands genuine count shorter sound ih =>
    cases found : network.find? key with
    | some id =>
      rw [instantiate_of_find? (.join key operator operands) found]
      exact ⟨distinct, fun _ holds => .inl holds⟩
    | none =>
      obtain ⟨growth, middle, ⟨distinct', short⟩, inner⟩ := instantiateAll_growth
        (I := fun middle => middle.Distinct ∧ ∀ added, middle.Holds added →
          network.Holds added ∨ added.key.canonical.length < key.canonical.length)
        (Q := fun middle id _ => middle.IsInner id) sound wf
        (fun operand member middle _ wf' ⟨distinct', short⟩ => by
          obtain ⟨distinct'', within⟩ := ih operand member wf' distinct'
          refine ⟨⟨distinct'', fun added holds => ?_⟩,
            (instantiate_growth (sound operand member) wf').2⟩
          rcases within added holds with old | le
          · exact short added old
          · exact .inr (Nat.lt_of_le_of_lt le (shorter operand member)))
        (fun extension inner => extension.isInner inner) ⟨distinct, fun _ holds => .inl holds⟩
      have grown := (Grows.join_of_forall₂ genuine count inner).wellFormed middle
      obtain ⟨own, last⟩ := exists_unfolds grown (isInner_last _ _ _ _ middle.nonempty)
      have carries : own.key = key := key_of_unfolds_last rfl last
      -- The operands have not used the key up: their texts are shorter.
      have new : ∀ plan, (network.instantiateAll operands).2.Holds plan → plan.key ≠ own.key := by
        intro plan holds same
        rcases short plan holds with old | less
        · exact key_ne_of_find?_eq_none wf found old (same.trans carries)
        · rw [same, carries] at less
          exact Nat.lt_irrefl _ less
      rw [instantiate_join found]
      refine ⟨distinct'.addNode middle grown last new, fun added holds => ?_⟩
      rcases holds_addNode middle grown holds with before | unfolds
      · exact (short added before).imp_right Nat.le_of_lt
      · rw [unfolds.unique last, carries]
        exact .inr (Nat.le_refl _)

/-- Attaching a rule leaves all nodes alone. -/
theorem unfolds_attach {network : Network} {rule : AttachedRule} {id : Nat} {plan : Plan} :
    (network.attach rule).Unfolds id plan ↔ network.Unfolds id plan := by
  have forth : network.Extends (network.attach rule) := Extends.refl network
  have back : (network.attach rule).Extends network := Extends.refl network
  exact ⟨Unfolds.extends back, Unfolds.extends forth⟩

/-- In a network that a builder can reach, keys are distinct. -/
theorem Reachable.distinct {config : Config} {builder : Builder}
    (reachable : Reachable config builder) : builder.network.Distinct := by
  have both : WellFormed builder.network ∧ builder.network.Distinct := by
    refine reachable.invariant (I := fun network => WellFormed network ∧ network.Distinct)
      ⟨.ofConfig config, ?_⟩ ?_
    · exact fun i _ plan _ unfolds => absurd ⟨i, unfolds⟩ (not_holds_ofConfig config plan)
    · rintro network grown rule attached added ⟨wf, distinct⟩
      refine ⟨(addRule_growth added wf).wellFormed wf, ?_⟩
      obtain ⟨plan, planned, rfl, rfl⟩ := addRule_eq_ok added
      obtain ⟨element, -, made⟩ := Plan.ofRule_eq_ok planned
      intro i j one other unfolds unfolds'
      exact (instantiate_distinct (Plan.sound_of_ofElement made) wf distinct).1
        (unfolds_attach.mp unfolds) (unfolds_attach.mp unfolds')
  exact both.2

/-! ## Parts -/

/-- The first plan is the second one or is found among its operands, at any depth. -/
inductive IsPart (part : Plan) : Plan → Prop
  | self : IsPart part part
  | operand {key : Key} {operator : Operator} {operands : List Plan} {operand : Plan} :
      operand ∈ operands → IsPart part operand → IsPart part (.join key operator operands)

/-- With a plan, a network holds its parts. -/
theorem Unfolds.part {network : Network} {part plan : Plan} (inside : IsPart part plan) {id : Nat}
    (unfolds : network.Unfolds id plan) : network.Holds part := by
  induction inside generalizing id with
  | self => exact ⟨id, unfolds⟩
  | operand member _ ih =>
    cases unfolds with
    | join found kind length each =>
      have paired := List.forall₂_iff_zip.mpr ⟨length, fun member => each _ _ member⟩
      obtain ⟨operand, -, unfolds⟩ := mem_right_of_forall₂ paired member
      exact ih unfolds

/-- What several plans add to a network is part of what their nodes stand for. -/
theorem instantiateAll_parts {plans : List Plan} (sound : ∀ plan ∈ plans, plan.Sound)
    (each : ∀ plan ∈ plans, ∀ network : Network, WellFormed network → ∀ part,
      (network.instantiate plan).2.Holds part → network.Holds part ∨
        ∃ own, (network.instantiate plan).2.Unfolds (network.instantiate plan).1 own ∧
          IsPart part own)
    {network : Network} (wf : WellFormed network) {part : Plan}
    (holds : (network.instantiateAll plans).2.Holds part) :
    network.Holds part ∨ ∃ id ∈ (network.instantiateAll plans).1, ∃ own,
      (network.instantiateAll plans).2.Unfolds id own ∧ IsPart part own := by
  induction plans generalizing network with
  | nil => exact .inl holds
  | cons plan rest ih =>
    rw [instantiateAll_cons] at holds ⊢
    have ⟨growth, _⟩ := instantiate_growth (sound plan List.mem_cons_self) wf
    have grown := growth.wellFormed wf
    have soundRest : ∀ plan ∈ rest, plan.Sound := fun plan member =>
      sound plan (List.mem_cons_of_mem _ member)
    have eachRest := fun plan member => each plan (List.mem_cons_of_mem _ member)
    rcases ih soundRest eachRest grown holds with before | ⟨id, member, own, unfolds, inside⟩
    · refine (each plan List.mem_cons_self network wf part before).imp_right ?_
      rintro ⟨own, unfolds, inside⟩
      have later := (instantiateAll_inner soundRest grown).1.extends grown
      exact ⟨_, List.mem_cons_self, own, unfolds.extends later, inside⟩
    · exact .inr ⟨id, List.mem_cons_of_mem _ member, own, unfolds, inside⟩

/-- What a plan adds to a network is part of what its node stands for. -/
theorem instantiate_parts {plan : Plan} (sound : plan.Sound) {network : Network}
    (wf : WellFormed network) {part : Plan} (holds : (network.instantiate plan).2.Holds part) :
    network.Holds part ∨ ∃ own,
      (network.instantiate plan).2.Unfolds (network.instantiate plan).1 own ∧ IsPart part own := by
  induction sound generalizing network part with
  | @pattern key condition genuine =>
    cases found : network.find? key with
    | some id =>
      rw [instantiate_of_find? (.pattern key condition) found] at holds
      exact .inl holds
    | none =>
      rw [wf.instantiate_pattern found] at holds ⊢
      exact (holds_addNode wf (wf.addNode_pattern genuine condition) holds).imp_right
        fun unfolds => ⟨part, unfolds, .self⟩
  | @join key operator operands genuine count shorter sound ih =>
    cases found : network.find? key with
    | some id =>
      rw [instantiate_of_find? (.join key operator operands) found] at holds
      exact .inl holds
    | none =>
      obtain ⟨growth, middle, inner⟩ := instantiateAll_inner sound wf
      rw [instantiate_join found] at holds ⊢
      rcases holds_addNode middle ((Grows.join_of_forall₂ genuine count inner).wellFormed middle)
        holds with before | unfolds
      · refine (instantiateAll_parts sound (fun plan member network wf part holds =>
          ih plan member wf holds) wf before).imp_right ?_
        rintro ⟨id, member, own, unfolds, inside⟩
        obtain ⟨plans, paired⟩ := exists_forall₂ fun id member =>
          have ⟨_, _, inner⟩ := mem_left_of_forall₂ inner member
          exists_unfolds middle inner
        obtain ⟨own', listed, unfolds'⟩ := mem_left_of_forall₂ paired member
        rw [unfolds.unique unfolds'] at inside
        exact ⟨_, unfolds_addJoin middle paired, .operand listed inside⟩
      · exact .inr ⟨part, unfolds, .self⟩

end RuleNet.Network
