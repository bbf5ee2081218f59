import RuleNet.Markup.Document
import RuleNet.Proofs.Engine.Reference

/-!
# What earlier rules change for later ones

A rule that is added to a network reuses the nodes it finds there. The rule can
also be compiled alone, in a network of its own. The two terminals stand for
the same plan exactly when the networks are `Compatible`: no plan of the lone
network has the text of another plan that was there before. Without that, the
rule can get a node that was made for another condition.

* `instantiate_lockstep`: compiled side by side, a plan leads to nodes that stand
  for one plan, and neither network gets ahead of the other.
* `shared_like_alone`: the exact condition, for whatever was added before.
* `sharing_changes_matches`: two rules that differ in a space only.
-/

namespace RuleNet.Network

open Rule (Definition Key Operator)
open Settings (Config)

/-! ## Networks side by side -/

/-- A plan of the first network and a plan of the second with one text are equal. -/
def Compatible (network other : Network) : Prop :=
  ∀ plan plan', network.Holds plan → other.Holds plan' →
    plan.key.canonical = plan'.key.canonical → plan = plan'

/-- With distinct keys, a network is compatible with itself. -/
theorem Distinct.compatible {network : Network} (distinct : network.Distinct)
    (wf : WellFormed network) : Compatible network network := by
  intro plan plan' holds holds' same
  obtain ⟨id, unfolds⟩ := holds
  obtain ⟨id', unfolds'⟩ := holds'
  have keys := (unfolds.genuine wf).ext (unfolds'.genuine wf) same
  exact distinct.eq_of_key ⟨id, unfolds⟩ ⟨id', unfolds'⟩ keys

/-- Two networks under construction: the shared one holds all that the lone one
holds, and is compatible with what the lone one becomes in the end. -/
structure Related (final shared alone : Network) : Prop where
  shared_wf : WellFormed shared
  alone_wf : WellFormed alone
  shared_confirm : shared.config.confirmCanonicalText = true
  alone_confirm : alone.config.confirmCanonicalText = true
  holds_of_alone : ∀ plan, alone.Holds plan → shared.Holds plan
  compatible : Compatible final shared

section Lockstep

variable {final shared alone : Network}

/-- The shared network knows the key already: the lone one makes nothing else. -/
theorem Related.known (related : Related final shared alone) {plan : Plan} (sound : plan.Sound)
    (later : (alone.instantiate plan).2.Extends final) {id : Nat}
    (found : shared.find? plan.key = some id) :
    Related final shared (alone.instantiate plan).2 ∧
      ∃ own, shared.Unfolds id own ∧
        (alone.instantiate plan).2.Unfolds (alone.instantiate plan).1 own := by
  have growth := (instantiate_growth sound related.alone_wf).1
  obtain ⟨own, unfolds, key⟩ :=
    unfolds_of_find? related.shared_wf related.shared_confirm sound.genuine found
  obtain ⟨own', unfolds', key'⟩ :=
    unfolds_instantiate sound related.alone_wf related.alone_confirm
  have same : own' = own := related.compatible own' own ⟨_, unfolds'.extends later⟩ ⟨id, unfolds⟩
    (congrArg Key.canonical (key'.trans key.symm))
  rw [same] at unfolds'
  refine ⟨{ related with
    alone_wf := growth.wellFormed related.alone_wf
    alone_confirm := growth.config_eq ▸ related.alone_confirm
    holds_of_alone := fun part holds => ?_ }, own, unfolds, unfolds'⟩
  -- What the lone network has made is part of the plan that the shared one holds.
  rcases instantiate_parts sound related.alone_wf holds with before | ⟨other, terminal, inside⟩
  · exact related.holds_of_alone part before
  · rw [terminal.unique unfolds'] at inside
    exact unfolds.part inside

/-- What the shared network does not find, the lone one does not find either. -/
theorem Related.find?_alone (related : Related final shared alone) {key : Key}
    (genuine : Genuine key) (missing : shared.find? key = none) : alone.find? key = none := by
  cases found : alone.find? key with
  | none => rfl
  | some id =>
    obtain ⟨plan, unfolds, own⟩ :=
      unfolds_of_find? related.alone_wf related.alone_confirm genuine found
    exact absurd own (key_ne_of_find?_eq_none related.shared_wf missing
      (related.holds_of_alone plan ⟨id, unfolds⟩))

/-- The same node is added to both networks. -/
theorem Related.addNode (related : Related final shared alone)
    (self : Compatible final final) {key key' : Key} {kind kind' : NodeKind}
    {inputs inputs' : List NodeId}
    (shared_wf : WellFormed (shared.addNode key kind inputs).2)
    (alone_wf : WellFormed (alone.addNode key' kind' inputs').2) {own : Plan}
    (unfolds : (shared.addNode key kind inputs).2.Unfolds (shared.addNode key kind inputs).1 own)
    (unfolds' : (alone.addNode key' kind' inputs').2.Unfolds
      (alone.addNode key' kind' inputs').1 own)
    (later : (alone.addNode key' kind' inputs').2.Extends final) :
    Related final (shared.addNode key kind inputs).2 (alone.addNode key' kind' inputs').2 where
  shared_wf := shared_wf
  alone_wf := alone_wf
  shared_confirm := related.shared_confirm
  alone_confirm := related.alone_confirm
  holds_of_alone := by
    intro plan holds
    rcases holds_addNode related.alone_wf alone_wf holds with before | last
    · exact (related.holds_of_alone plan before).extends (related.shared_wf.extends_addNode _ _ _)
    · rw [last.unique unfolds']
      exact ⟨_, unfolds⟩
  compatible := by
    intro plan plan' holds holds' same
    rcases holds_addNode related.shared_wf shared_wf holds' with before | last
    · exact related.compatible plan plan' holds before same
    · rw [last.unique unfolds] at same ⊢
      exact self plan own holds ⟨_, unfolds'.extends later⟩ same

/-- Several plans, compiled side by side. -/
theorem instantiateAll_lockstep {plans : List Plan} (sound : ∀ plan ∈ plans, plan.Sound)
    (each : ∀ plan ∈ plans, ∀ {shared alone : Network}, Related final shared alone →
      (alone.instantiate plan).2.Extends final →
      Related final (shared.instantiate plan).2 (alone.instantiate plan).2 ∧
        ∃ own, (shared.instantiate plan).2.Unfolds (shared.instantiate plan).1 own ∧
          (alone.instantiate plan).2.Unfolds (alone.instantiate plan).1 own)
    (related : Related final shared alone)
    (later : (alone.instantiateAll plans).2.Extends final) :
    Related final (shared.instantiateAll plans).2 (alone.instantiateAll plans).2 ∧
      ∃ owns, List.Forall₂ (shared.instantiateAll plans).2.Unfolds
          (shared.instantiateAll plans).1 owns ∧
        List.Forall₂ (alone.instantiateAll plans).2.Unfolds
          (alone.instantiateAll plans).1 owns := by
  induction plans generalizing shared alone with
  | nil => exact ⟨related, [], .nil, .nil⟩
  | cons plan rest ih =>
    have soundRest : ∀ plan ∈ rest, plan.Sound := fun plan member =>
      sound plan (List.mem_cons_of_mem _ member)
    rw [instantiateAll_cons] at later
    have grown := (instantiate_growth (sound plan List.mem_cons_self) related.alone_wf).1.wellFormed
      related.alone_wf
    have behind := (instantiateAll_inner soundRest grown).1.extends grown
    obtain ⟨related', own, unfolds, unfolds'⟩ :=
      each plan List.mem_cons_self related (behind.trans later)
    obtain ⟨related'', owns, paired, paired'⟩ :=
      ih soundRest (fun plan member => each plan (List.mem_cons_of_mem _ member)) related' later
    have ahead := (instantiateAll_inner soundRest related'.shared_wf).1.extends related'.shared_wf
    rw [instantiateAll_cons, instantiateAll_cons]
    exact ⟨related'', own :: owns, .cons (unfolds.extends ahead) paired,
      .cons (unfolds'.extends behind) paired'⟩

/-- A plan, compiled side by side in related networks: the nodes stand for one
plan, and the networks stay related. -/
theorem instantiate_lockstep (self : Compatible final final) {plan : Plan} (sound : plan.Sound)
    (related : Related final shared alone) (later : (alone.instantiate plan).2.Extends final) :
    Related final (shared.instantiate plan).2 (alone.instantiate plan).2 ∧
      ∃ own, (shared.instantiate plan).2.Unfolds (shared.instantiate plan).1 own ∧
        (alone.instantiate plan).2.Unfolds (alone.instantiate plan).1 own := by
  induction sound generalizing shared alone with
  | @pattern key condition genuine =>
    have sound : (Plan.pattern key condition).Sound := .pattern genuine
    cases found : shared.find? key with
    | some id =>
      rw [instantiate_of_find? (.pattern key condition) found]
      exact related.known sound later found
    | none =>
      have missing := related.find?_alone genuine found
      rw [related.alone_wf.instantiate_pattern missing] at later
      rw [related.shared_wf.instantiate_pattern found,
        related.alone_wf.instantiate_pattern missing]
      have unfolds := unfolds_addNode_pattern shared key condition
      have unfolds' := unfolds_addNode_pattern alone key condition
      have wf := related.shared_wf.addNode_pattern genuine condition
      have wf' := related.alone_wf.addNode_pattern genuine condition
      exact ⟨related.addNode self wf wf' unfolds unfolds' later, _, unfolds, unfolds'⟩
  | @join key operator operands genuine count shorter soundAll ih =>
    have sound : (Plan.join key operator operands).Sound := .join genuine count shorter soundAll
    cases found : shared.find? key with
    | some id =>
      rw [instantiate_of_find? (.join key operator operands) found]
      exact related.known sound later found
    | none =>
      -- Neither network knows the key, so both make a join over what the operands lead to.
      have missing := related.find?_alone genuine found
      have ⟨_, middle, inner⟩ := instantiateAll_inner soundAll related.alone_wf
      rw [instantiate_join missing] at later
      rw [instantiate_join found, instantiate_join missing]
      obtain ⟨related', owns, paired, paired'⟩ := instantiateAll_lockstep soundAll
        (fun operand member _ _ related later => ih operand member related later) related
        ((middle.extends_addNode key _ _).trans later)
      have count' := paired'.length_eq.symm.trans (inner.length_eq.trans count)
      have wf := wellFormed_addJoin related'.shared_wf genuine count' paired
      have wf' := wellFormed_addJoin related'.alone_wf genuine count' paired'
      have unfolds : (Network.addJoin _ key operator _).2.Unfolds _ (.join key operator owns) :=
        unfolds_addJoin related'.shared_wf paired
      have unfolds' : (Network.addJoin _ key operator _).2.Unfolds _ (.join key operator owns) :=
        unfolds_addJoin related'.alone_wf paired'
      exact ⟨related'.addNode self wf wf' unfolds unfolds' later, _, unfolds, unfolds'⟩

end Lockstep

/-! ## A rule added to a network, and the same rule alone -/

/-- An accepted rule is attached to the node of its plan. -/
theorem Builder.unfolds_addRule {builder grown : Builder} {rule : Definition}
    {attached : AttachedRule} (added : builder.addRule rule = .ok (attached, grown)) :
    ∃ plan, Plan.ofRule rule = .ok plan ∧ plan.Sound ∧
      attached.terminal = (builder.network.instantiate plan).1 ∧
      ∀ (id : Nat) (other : Plan), grown.network.Unfolds id other ↔
        (builder.network.instantiate plan).2.Unfolds id other := by
  obtain ⟨network, inner, rfl⟩ := Builder.addRule_eq_ok added
  obtain ⟨plan, planned, rfl, rfl⟩ := Network.addRule_eq_ok inner
  obtain ⟨element, -, made⟩ := Plan.ofRule_eq_ok planned
  exact ⟨plan, planned, Plan.sound_of_ofElement made, rfl, fun _ _ => unfolds_attach⟩

/-- The terminal of a rule in a network with a history and its terminal in a
network of its own stand for one plan exactly when the lone network is
compatible with the history. -/
theorem compatible_iff {plan : Plan} (sound : plan.Sound) {shared empty : Network}
    (wf : WellFormed shared) (distinct : shared.Distinct) (wf' : WellFormed empty)
    (confirm : shared.config.confirmCanonicalText = true)
    (confirm' : empty.config.confirmCanonicalText = true)
    (nothing : ∀ plan, ¬ empty.Holds plan) :
    Compatible (empty.instantiate plan).2 shared ↔
      ∃ own, (shared.instantiate plan).2.Unfolds (shared.instantiate plan).1 own ∧
        (empty.instantiate plan).2.Unfolds (empty.instantiate plan).1 own := by
  have growth := (instantiate_growth sound wf).1
  have growth' := (instantiate_growth sound wf').1
  constructor
  · intro compatible
    have distinct' : empty.Distinct := fun i _ plan _ unfolds => absurd ⟨i, unfolds⟩ (nothing plan)
    have self := (instantiate_distinct sound wf' distinct').1.compatible (growth'.wellFormed wf')
    have related : Related (empty.instantiate plan).2 shared empty :=
      ⟨wf, wf', confirm, confirm', fun plan holds => absurd holds (nothing plan), compatible⟩
    exact (instantiate_lockstep self sound related (Extends.refl _)).2
  · rintro ⟨own, unfolds, unfolds'⟩ part other holds holds' same
    -- All that the lone network holds is part of what the terminals stand for.
    have inside : (shared.instantiate plan).2.Holds part := by
      rcases instantiate_parts sound wf' holds with before | ⟨own', terminal, below⟩
      · exact absurd before (nothing part)
      · rw [terminal.unique unfolds'] at below
        exact unfolds.part below
    have self := (instantiate_distinct sound wf distinct).1.compatible (growth.wellFormed wf)
    exact self part other inside (holds'.extends (growth.extends wf)) same

end RuleNet.Network

namespace RuleNet.Engine

open Markup (Element)
open Memory (Fact)
open Network
open Rule (Definition)
open Settings (Config)

/-- A rule that is accepted after any history is accepted alone. Its two
terminals stand for one plan exactly when the lone network is compatible with
the history, and then they have the same activations for all facts. -/
theorem shared_like_alone {config : Config} {builder grown : Builder}
    (reachable : Reachable config builder) (confirm : config.confirmCanonicalText = true)
    {rule : Definition} {attached : AttachedRule}
    (added : builder.addRule rule = .ok (attached, grown)) :
    ∃ attached' alone, (Builder.ofConfig config).addRule rule = .ok (attached', alone) ∧
      (Compatible alone.network builder.network ↔
        ∃ plan, grown.network.Unfolds attached.terminal plan ∧
          alone.network.Unfolds attached'.terminal plan) ∧
      (Compatible alone.network builder.network → ∀ facts : List Fact,
        (Report.ofRun grown.network facts).activationsOf attached.terminal =
          (Report.ofRun alone.network facts).activationsOf attached'.terminal) := by
  obtain ⟨plan, planned, sound, terminal, unfolds⟩ := Builder.unfolds_addRule added
  have accepted : ∃ attached' alone,
      (Builder.ofConfig config).addRule rule = .ok (attached', alone) := by
    rw [Builder.addRule, Network.addRule, planned]
    exact ⟨_, _, rfl⟩
  obtain ⟨attached', alone, added'⟩ := accepted
  obtain ⟨plan', planned', -, terminal', unfolds'⟩ := Builder.unfolds_addRule added'
  cases planned.symm.trans planned'
  have exactly := compatible_iff sound reachable.wellFormed reachable.distinct
    (WellFormed.ofConfig config) (by rw [reachable.config_eq, confirm]) confirm
    (not_holds_ofConfig config)
  have condition : Compatible alone.network builder.network ↔
      ∃ plan, grown.network.Unfolds attached.terminal plan ∧
        alone.network.Unfolds attached'.terminal plan := by
    simp only [Compatible, Holds, unfolds, unfolds', terminal, terminal']
    exact exactly
  refine ⟨attached', alone, added', condition, fun compatible facts => ?_⟩
  obtain ⟨own, stands, stands'⟩ := condition.mp compatible
  have reached := reachable.addRule added
  have reached' := Reachable.start.addRule added'
  rw [activationsOf_unfolds reached.wellFormed facts stands,
    activationsOf_unfolds reached'.wellFormed facts stands', reached.config_eq, reached'.config_eq]

/-- A second rule with the same pattern: both networks have one node for it. -/
theorem shared_like_alone_twice :
    let pattern : Element := { name := "weapon", attributes := [("type", "string")], text := "axe" }
    let builder := (Builder.ofConfig {}).offer (.ofCondition "first" pattern)
    let facts : List Fact := [.leaf 1 "weapon" (.string "axe")]
    ∃ attached grown attached' alone,
      builder.addRule (.ofCondition "second" pattern) = .ok (attached, grown) ∧
      (Builder.ofConfig {}).addRule (.ofCondition "second" pattern) = .ok (attached', alone) ∧
      grown.network.size = 2 ∧
      (Report.ofRun grown.network facts).activationsOf attached.terminal =
        (Report.ofRun alone.network facts).activationsOf attached'.terminal := by
  intro pattern builder facts
  have reachable : Reachable {} builder := .offer _ .start
  have added : builder.addRule (.ofCondition "second" pattern) = .ok (_, _) := rfl
  have lone : (Builder.ofConfig {}).addRule (.ofCondition "second" pattern) = .ok (_, _) := rfl
  obtain ⟨attached', alone, added', condition, same⟩ := shared_like_alone reachable rfl added
  cases lone.symm.trans added'
  have compatible := condition.mpr
    ⟨.pattern (.ofElement pattern) (.string "weapon" "axe"), .pattern rfl rfl, .pattern rfl rfl⟩
  exact ⟨_, _, _, _, added, lone, by decide, same compatible facts⟩

/-- Two rules that differ in a space inside a string: alone the second one
matches the fact it asks for, and after the first one it does not. -/
theorem sharing_changes_matches :
    let joined : Element :=
      { name := "weapon", attributes := [("type", "string")], text := "handaxe" }
    let spaced : Element :=
      { name := "weapon", attributes := [("type", "string")], text := "hand axe" }
    let facts : List Fact := [.leaf 1 "weapon" (.string "hand axe")]
    Element.parse "<weapon type=\"string\">handaxe</weapon>" = .ok joined ∧
      Element.parse "<weapon type=\"string\">hand axe</weapon>" = .ok spaced ∧
      ∃ attached grown attached' alone,
        ((Builder.ofConfig {}).offer (.ofCondition "joined" joined)).addRule
          (.ofCondition "spaced" spaced) = .ok (attached, grown) ∧
        (Builder.ofConfig {}).addRule (.ofCondition "spaced" spaced) = .ok (attached', alone) ∧
        ((Report.ofRun grown.network facts).activationsOf attached.terminal).length = 0 ∧
        ((Report.ofRun alone.network facts).activationsOf attached'.terminal).length = 1 := by
  intro joined spaced facts
  exact ⟨rfl, rfl, _, _, _, _, rfl, rfl, rfl, rfl⟩

end RuleNet.Engine
