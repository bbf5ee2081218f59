import RuleNet.Proofs.Engine.Reference

/-!
# Compiled rules mean what their conditions mean

Nodes are shared between all expressions with one canonical text. As long as
equal texts come from equal elements (`Faithful`), every node of the network
stands for an expression that some rule has asked for (`Known`), and then the
terminal of a rule produces exactly what the rule's condition stands for.

* `instantiate_faithful`: the node for an expression stands for its plan.
* `addRules_compiles`: so do the terminals after a batch of rules.
* `built_reference`: a network that was built for a list of rules gives every
  terminal the reference activations of its rule's condition.
-/

namespace RuleNet.Network

open Markup (Element)
open Rule (Definition Key RuleError)
open Settings (Config)

/-! ## Faithful texts -/

/-- Elements of the list with one canonical text are equal. -/
def Faithful (elements : List Element) : Prop :=
  ∀ a ∈ elements, ∀ b ∈ elements,
    (Key.ofElement a).canonical = (Key.ofElement b).canonical → a = b

instance (elements : List Element) : Decidable (Faithful elements) :=
  inferInstanceAs (Decidable (∀ a ∈ elements, ∀ b ∈ elements,
    (Key.ofElement a).canonical = (Key.ofElement b).canonical → a = b))

/-- Every node stands for the plan of an element of the list. -/
def Known (elements : List Element) (network : Network) : Prop :=
  ∀ plan, network.Holds plan → ∃ element ∈ elements, Plan.ofElement element = .ok plan

theorem Known.addNode {elements : List Element} {network : Network}
    (known : Known elements network) (wf : WellFormed network) {key : Key} {kind : NodeKind}
    {inputs : List NodeId} (grown : WellFormed (network.addNode key kind inputs).2)
    {element : Element} (member : element ∈ elements) {plan : Plan}
    (planned : Plan.ofElement element = .ok plan)
    (last : (network.addNode key kind inputs).2.Unfolds (network.addNode key kind inputs).1 plan) :
    Known elements (network.addNode key kind inputs).2 := by
  intro added holds
  rcases holds_addNode wf grown holds with before | unfolds
  · exact known added before
  · exact ⟨element, member, by rw [unfolds.unique last, planned]⟩

section Faithful

variable {elements : List Element} (faithful : Faithful elements)
include faithful

/-- What is found for the key of an element of the list stands for its plan. -/
theorem unfolds_of_find?_faithful {network : Network} (wf : WellFormed network)
    (confirm : network.config.confirmCanonicalText = true) (known : Known elements network)
    {element : Element} (member : element ∈ elements) {plan : Plan}
    (planned : Plan.ofElement element = .ok plan) {id : Nat}
    (found : network.find? plan.key = some id) : network.Unfolds id plan := by
  have genuine := (Plan.sound_of_ofElement planned).genuine
  obtain ⟨own, unfolds, same⟩ := unfolds_of_find? wf confirm genuine found
  obtain ⟨other, member', planned'⟩ := known own ⟨id, unfolds⟩
  rw [Plan.key_of_ofElement planned, Plan.key_of_ofElement planned'] at same
  cases faithful other member' element member (congrArg Key.canonical same)
  cases planned.symm.trans planned'
  exact unfolds

/-- The node for an expression stands for its plan, and all that was added on
the way stands for the plans of subexpressions. -/
theorem instantiate_faithful {element : Element} {plan : Plan}
    (planned : Plan.ofElement element = .ok plan) (inside : subexpressions element ⊆ elements)
    {network : Network} (wf : WellFormed network)
    (confirm : network.config.confirmCanonicalText = true) (known : Known elements network) :
    Known elements (network.instantiate plan).2 ∧
      (network.instantiate plan).2.Unfolds (network.instantiate plan).1 plan := by
  induction element using Element.induction generalizing plan network with
  | step element ih =>
    have member : element ∈ elements := inside (self_mem_subexpressions element)
    have sound := Plan.sound_of_ofElement planned
    cases found : network.find? plan.key with
    | some id =>
      rw [instantiate_of_find? plan found]
      exact ⟨known, unfolds_of_find?_faithful faithful wf confirm known member planned found⟩
    | none =>
      -- A new node: its operands stand for their plans by induction, and stay so.
      rw [Plan.key_of_ofElement planned] at found
      rcases Plan.ofElement_inv planned with
        ⟨condition, tag, built, rfl⟩ | ⟨operator, operands, tag, count, all, rfl⟩
      · have grown := wf.addNode_pattern sound.genuine condition
        have last := unfolds_addNode_pattern network (Key.ofElement element) condition
        rw [wf.instantiate_pattern found]
        exact ⟨known.addNode wf grown member planned last, last⟩
      · have soundAll : ∀ operand ∈ operands, operand.Sound := fun operand member =>
          have ⟨_, _, planned⟩ := mem_right_of_forall₂ all member
          Plan.sound_of_ofElement planned
        obtain ⟨growth, middle, known', paired⟩ := instantiateAll_growth
          (I := Known elements) (Q := Unfolds) soundAll wf
          (fun operand member between growth wf' known' => by
            obtain ⟨child, inner, planned⟩ := mem_right_of_forall₂ all member
            have below := List.Subset.trans (subexpressions_operand tag inner) inside
            exact ih child inner planned below wf' (growth.config_eq ▸ confirm) known')
          (fun extension unfolds => unfolds.extends extension) known
        have grown := wellFormed_addJoin middle sound.genuine
          (all.length_eq.symm.trans count) paired
        have last : ((network.instantiateAll operands).2.addJoin (Key.ofElement element) operator
            (network.instantiateAll operands).1).2.Unfolds _
              (.join (Key.ofElement element) operator operands) := unfolds_addJoin middle paired
        rw [instantiate_join found]
        exact ⟨known'.addNode middle grown member planned last, last⟩

end Faithful

/-! ## Batches of rules -/

/-- The condition of a rule that can be compiled. -/
def compilable? (rule : Definition) : Option Element :=
  match Plan.ofRule rule with
  | .ok _ => rule.condition.toOption
  | .error _ => none

/-- The rules of a batch that can be compiled, with their conditions. -/
def compilable (rules : List Definition) : List (Definition × Element) :=
  rules.filterMap fun rule => (compilable? rule).map (rule, ·)

theorem compilable?_eq_some {rule : Definition} {element : Element} {plan : Plan}
    (chosen : rule.condition = .ok element) (planned : Plan.ofRule rule = .ok plan) :
    compilable? rule = some element := by
  rw [compilable?, planned, chosen]
  rfl

theorem compilable_cons {rule : Definition} {element : Element} (rest : List Definition)
    (chosen : compilable? rule = some element) :
    compilable (rule :: rest) = (rule, element) :: compilable rest := by
  rw [compilable, List.filterMap_cons, chosen]
  rfl

theorem compilable_cons_of_none {rule : Definition} (rest : List Definition)
    (failed : compilable? rule = none) : compilable (rule :: rest) = compilable rest := by
  rw [compilable, List.filterMap_cons, failed]
  rfl

/-- A rule is accepted exactly when it can be compiled, whatever came before it. -/
theorem isOk_addRule (builder : Builder) (rule : Definition) :
    (builder.addRule rule).isOk = (compilable? rule).isSome := by
  rw [Builder.addRule, addRule, compilable?]
  cases planned : Plan.ofRule rule with
  | error why => rfl
  | ok plan =>
    obtain ⟨element, chosen, -⟩ := Plan.ofRule_eq_ok planned
    rw [chosen]
    rfl

/-- The attached rule is the given one, and its terminal stands for the condition. -/
structure Compiles (network : Network) (rule : Definition × Element) (attached : AttachedRule) :
    Prop where
  name_eq : attached.name = rule.1.name
  action_eq : attached.action = rule.1.action
  unfolds : ∃ plan, Plan.ofElement rule.2 = .ok plan ∧ network.Unfolds attached.terminal plan

theorem Compiles.extends {old new : Network} {rule : Definition × Element}
    {attached : AttachedRule} (compiles : Compiles old rule attached)
    (extension : old.Extends new) : Compiles new rule attached := by
  obtain ⟨name, action, plan, planned, unfolds⟩ := compiles
  exact ⟨name, action, plan, planned, unfolds.extends extension⟩

section Batch

variable {elements : List Element} (faithful : Faithful elements)
include faithful

/-- One more rule: its terminal stands for its condition, and all others stay as they are. -/
theorem addRule_compiles {network grown : Network} {rule : Definition} {attached : AttachedRule}
    (added : network.addRule rule = .ok (attached, grown)) {element : Element}
    (chosen : compilable? rule = some element) (inside : subexpressions element ⊆ elements)
    (wf : WellFormed network) (confirm : network.config.confirmCanonicalText = true)
    (known : Known elements network) {earlier : List (Definition × Element)}
    (compiled : List.Forall₂ (Compiles network) earlier network.rules) :
    Known elements grown ∧
      List.Forall₂ (Compiles grown) (earlier ++ [(rule, element)]) grown.rules := by
  have rules := rules_addRule added
  obtain ⟨plan, planned, rfl, rfl⟩ := addRule_eq_ok added
  obtain ⟨own, chosen', made⟩ := Plan.ofRule_eq_ok planned
  cases chosen.symm.trans (compilable?_eq_some chosen' planned)
  have growth := (instantiate_growth (Plan.sound_of_ofElement made) wf).1
  obtain ⟨known', unfolds⟩ := instantiate_faithful faithful made inside wf confirm known
  have attaching : (network.instantiate plan).2.Extends ((network.instantiate plan).2.attach
      ⟨rule.name, (network.instantiate plan).1, rule.action⟩) := Extends.refl _
  refine ⟨fun other holds => known' other (holds.imp fun _ => unfolds_attach.mp), ?_⟩
  rw [rules]
  refine List.rel_append (compiled.imp fun _ _ compiles =>
    compiles.extends ((growth.extends wf).trans attaching)) (.cons ?_ .nil)
  exact ⟨rfl, rfl, plan, made, unfolds.extends attaching⟩

/-- A batch that is not stopped: every rule that can be compiled is attached, in
order, and its terminal stands for its condition. -/
theorem addRules_compiles {builder grown : Builder} {rules : List Definition}
    (added : builder.addRules rules = (grown, none))
    (inside : ∀ rule ∈ compilable rules, subexpressions rule.2 ⊆ elements)
    (wf : WellFormed builder.network)
    (confirm : builder.network.config.confirmCanonicalText = true)
    (known : Known elements builder.network) {earlier : List (Definition × Element)}
    (compiled : List.Forall₂ (Compiles builder.network) earlier builder.network.rules) :
    List.Forall₂ (Compiles grown.network) (earlier ++ compilable rules) grown.network.rules := by
  induction rules generalizing builder earlier with
  | nil =>
    cases added
    rw [compilable, List.filterMap_nil, List.append_nil]
    exact compiled
  | cons rule rest ih =>
    have accepted := isOk_addRule builder rule
    cases outcome : builder.addRule rule with
    | ok result =>
      obtain ⟨attached, middle⟩ := result
      rw [Builder.addRules_of_ok rest outcome] at added
      rw [outcome] at accepted
      obtain ⟨element, chosen⟩ := Option.isSome_iff_exists.mp accepted.symm
      rw [compilable_cons rest chosen] at inside ⊢
      obtain ⟨network, inner, rfl⟩ := Builder.addRule_eq_ok outcome
      have growth := addRule_growth inner wf
      obtain ⟨known', compiled'⟩ := addRule_compiles faithful inner chosen
        (inside _ List.mem_cons_self) wf confirm known compiled
      have whole := ih added (fun rule member => inside rule (List.mem_cons_of_mem _ member))
        (growth.wellFormed wf) (growth.config_eq ▸ confirm) known' compiled'
      rwa [List.append_assoc] at whole
    | error why =>
      rw [outcome] at accepted
      have failed := Option.not_isSome_iff_eq_none.mp (Bool.eq_false_iff.mp accepted.symm)
      rw [compilable_cons_of_none rest failed] at inside ⊢
      cases policy : builder.network.config.invalidRules with
      | failFast =>
        rw [Builder.addRules_failFast rest outcome policy] at added
        cases added
      | skip =>
        rw [Builder.addRules_skip rest outcome policy] at added
        exact ih added inside wf confirm known compiled

end Batch

theorem Builder.build_eq_ok {config : Config} {rules : List Definition} {builder : Builder} :
    Builder.build config rules = .ok builder ↔
      (Builder.ofConfig config).addRules rules = (builder, none) := by
  rw [build]
  rcases (ofConfig config).addRules rules with ⟨grown, _ | why⟩
  · simp
  · simp

end RuleNet.Network

namespace RuleNet.Engine

open Markup (Element)
open Memory (Fact)
open Network
open Rule (Definition)
open Settings (Config)

/-! ## Built networks -/

/-- With texts compared, and equal texts only from equal elements, a network
that was built for a list of rules has them attached in order, those apart that
cannot be compiled, and gives the terminal of each exactly what the rule's
condition stands for. -/
theorem built_reference {config : Config} (confirm : config.confirmCanonicalText = true)
    {rules : List Definition} {builder : Builder} (built : Builder.build config rules = .ok builder)
    (faithful : Faithful ((compilable rules).flatMap fun rule => subexpressions rule.2))
    (facts : List Fact) :
    List.Forall₂ (fun rule attached =>
        attached.name = rule.1.name ∧ attached.action = rule.1.action ∧
          (Report.ofRun builder.network facts).activationsOf attached.terminal =
            reference config (place facts) rule.2)
      (compilable rules) builder.network.rules := by
  have added := Builder.build_eq_ok.mp built
  have reachable : Reachable config ((Builder.ofConfig config).addRules rules).1 :=
    .addRules rules .start
  rw [added] at reachable
  have inside : ∀ rule ∈ compilable rules, subexpressions rule.2 ⊆
      (compilable rules).flatMap fun rule => subexpressions rule.2 := fun rule member part below =>
    List.mem_flatMap.mpr ⟨rule, member, below⟩
  have compiled := addRules_compiles faithful added inside (.ofConfig config) confirm
    (fun plan holds => absurd holds (not_holds_ofConfig config plan)) .nil
  refine compiled.imp fun rule attached ⟨name, action, plan, planned, unfolds⟩ =>
    ⟨name, action, ?_⟩
  rw [activationsOf_unfolds reachable.wellFormed facts unfolds, reachable.config_eq,
    reference_eq_tokens config (place facts) planned]

/-- One pattern is both operands of a conjunction. -/
theorem built_reference_pair :
    let pattern : Element := { name := "weapon", attributes := [("type", "string")], text := "axe" }
    let both : Element := { name := "and", children := [pattern, pattern] }
    let rules := [Definition.ofCondition "both" both]
    let facts : List Fact := [.leaf 1 "weapon" (.string "axe"), .leaf 2 "weapon" (.string "axe")]
    ∃ builder, Builder.build {} rules = .ok builder ∧
      Faithful ((compilable rules).flatMap fun rule => subexpressions rule.2) ∧
      builder.network.rules.map AttachedRule.name = ["both"] ∧
      (builder.network.rules.map fun attached =>
        (Report.ofRun builder.network facts).activationsOf attached.terminal) =
          [reference {} (place facts) both] ∧
      (reference {} (place facts) both).length = 4 := by
  intro pattern both rules facts
  have faithful : Faithful ((compilable rules).flatMap fun rule => subexpressions rule.2) := by
    decide
  have built : Builder.build {} rules = .ok ((Builder.ofConfig {}).addRules rules).1 :=
    Builder.build_eq_ok.mpr (Prod.ext rfl rfl)
  have compiled := built_reference rfl built faithful facts
  have names := map_eq_map_of_forall₂ (compiled.imp fun rule attached means => means.1.symm)
  have tokens := map_eq_map_of_forall₂ (compiled.imp fun rule attached means => means.2.2.symm)
  exact ⟨_, built, faithful, names.symm, tokens.symm, by decide⟩

end RuleNet.Engine
