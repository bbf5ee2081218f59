import Mathlib.Data.List.TakeWhile
import RuleNet.Proofs.Network.Growth

/-!
# Batches of rules

Planning a rule does not look at the network, and a planned rule cannot fail any
more. So a rule is valid or not for all builders alike, and a batch is settled by
its valid rules: an invalid one is recorded or stops the batch, and leaves the
network as it was.

A builder is changed in place, and a call that fails does not undo what it has
changed already. `Call.addRule` and `Call.addRules` make their changes one after
the other; `Builder.addRule`, which gives no builder along with an error, and
`Builder.addRules` agree with them (`perform_addRule`, `perform_addRules`).

* `addRules_eq_of_skip`, `addRules_eq_of_failFast`: what a batch leaves behind.
* `addRules_append`: a batch is a batch after a batch.
* `batch_policy`: all of this, and what becomes of a single rule.
-/

namespace RuleNet.Network

open Rule (Definition RuleError)

/-! ## Valid rules -/

/-- Why an empty builder rejects the rule, if it does. -/
def refusal? (rule : Definition) : Option RuleError :=
  match (Builder.ofConfig {}).addRule rule with
  | .ok _ => none
  | .error why => some why

/-- An empty builder accepts the rule. -/
def valid (rule : Definition) : Bool := (refusal? rule).isNone

/-- The records of the invalid rules of a list, in order. -/
def refused (rules : List Definition) : List SkippedRule :=
  rules.filterMap fun rule => (refusal? rule).map fun why => ⟨rule.name, why⟩

/-- The network after a rule was offered to it, accepted or not. -/
def offer (network : Network) (rule : Definition) : Network :=
  match network.addRule rule with
  | .ok (_, grown) => grown
  | .error _ => network

section Rules

variable {rule : Definition} {why : RuleError}

theorem Builder.addRule_eq_error_iff_ofRule (builder : Builder) :
    builder.addRule rule = .error why ↔ Plan.ofRule rule = .error why := by
  rw [Builder.addRule, Network.addRule]
  cases Plan.ofRule rule <;> simp [Except.map]

theorem refusal?_eq_some : refusal? rule = some why ↔ Plan.ofRule rule = .error why := by
  rw [← Builder.addRule_eq_error_iff_ofRule (.ofConfig {}), refusal?]
  cases (Builder.ofConfig {}).addRule rule <;> simp

/-- A builder rejects what an empty builder rejects, and for the same reason. -/
theorem Builder.addRule_eq_error_iff (builder : Builder) :
    builder.addRule rule = .error why ↔ refusal? rule = some why :=
  builder.addRule_eq_error_iff_ofRule.trans refusal?_eq_some.symm

/-- A valid rule is accepted by every builder. The network grows, and nothing else changes. -/
theorem Builder.exists_addRule (builder : Builder) (accepted : refusal? rule = none) :
    ∃ attached, builder.addRule rule =
      .ok (attached, { builder with network := builder.network.offer rule }) := by
  cases added : builder.addRule rule with
  | error why =>
    rw [builder.addRule_eq_error_iff, accepted] at added
    cases added
  | ok result =>
    obtain ⟨network, inner, grown⟩ := Builder.addRule_eq_ok added
    exact ⟨result.1, by rw [Network.offer, inner, ← grown]⟩

theorem offer_of_refusal? (network : Network) (rejected : refusal? rule = some why) :
    network.offer rule = network := by
  rw [offer, addRule, refusal?_eq_some.mp rejected]
  rfl

theorem config_offer (network : Network) (rule : Definition) :
    (network.offer rule).config = network.config := by
  rw [offer]
  cases added : network.addRule rule with
  | error why => rfl
  | ok result => exact config_addRule added

end Rules

/-! ## Calls that change a builder in place -/

/-- A call that changes a builder and can fail. What it changed before it failed stays changed. -/
abbrev Call (α : Type) := ExceptT RuleError (StateM Builder) α

namespace Call

/-- The outcome of a call, and the builder after it. -/
def perform {α : Type} (call : Call α) (builder : Builder) : Except RuleError α × Builder :=
  (call.run.run builder).run

/-- The rule is planned, the plan is turned into nodes, and the rule is attached. -/
def addRule (rule : Definition) : Call AttachedRule := do
  let plan ← liftExcept (Plan.ofRule rule)
  let terminal ← modifyGet fun builder =>
    let (id, network) := builder.network.instantiate plan
    (id, { builder with network := network })
  let attached : AttachedRule := { name := rule.name, terminal := terminal, action := rule.action }
  modify fun builder => { builder with network := builder.network.attach attached }
  return attached

/-- A rule is added. If it is rejected, the settings say whether this is an error. -/
def addOrSkip (rule : Definition) : Call Unit := do
  try
    let _ ← addRule rule
  catch why =>
    match (← get).network.config.invalidRules with
    | .failFast => throw why
    | .skip => modify fun builder =>
        { builder with skipped := builder.skipped ++ [⟨rule.name, why⟩] }

/-- The rules are added one after the other. -/
def addRules (rules : List Definition) : Call Unit := rules.forM addOrSkip

section Laws

variable {α β : Type} (builder : Builder)

theorem perform_bind (call : Call α) (next : α → Call β) :
    (call >>= next).perform builder =
      match call.perform builder with
      | (.ok result, changed) => (next result).perform changed
      | (.error why, changed) => (.error why, changed) := by
  unfold perform ExceptT.run StateT.run Id.run
  simp only [bind, ExceptT.bind, ExceptT.mk, StateT.bind, ExceptT.bindCont]
  cases call builder with
  | mk outcome changed => cases outcome <;> rfl

theorem perform_tryCatch (call : Call α) (handler : RuleError → Call α) :
    (tryCatch call handler).perform builder =
      match call.perform builder with
      | (.ok result, changed) => (.ok result, changed)
      | (.error why, changed) => (handler why).perform changed := by
  unfold perform ExceptT.run StateT.run Id.run
  simp only [tryCatch, tryCatchThe, MonadExceptOf.tryCatch, ExceptT.tryCatch, ExceptT.mk, bind,
    StateT.bind]
  cases call builder with
  | mk outcome changed => cases outcome <;> rfl

end Laws

theorem perform_addRule (rule : Definition) (builder : Builder) :
    (addRule rule).perform builder =
      match builder.addRule rule with
      | .ok (attached, grown) => (.ok attached, grown)
      | .error why => (.error why, builder) := by
  rw [Builder.addRule, Network.addRule]
  cases planned : Plan.ofRule rule with
  | error why =>
    -- Planning comes before the first change.
    rw [addRule, planned]
    rfl
  | ok plan =>
    rw [addRule, planned]
    rfl

theorem perform_addOrSkip (rule : Definition) (builder : Builder) :
    (addOrSkip rule).perform builder =
      match builder.addRule rule with
      | .ok (_, grown) => (.ok (), grown)
      | .error why =>
          match builder.network.config.invalidRules with
          | .failFast => (.error why, builder)
          | .skip =>
              (.ok (), { builder with skipped := builder.skipped ++ [⟨rule.name, why⟩] }) := by
  have first := perform_addRule rule builder
  rw [addOrSkip, perform_tryCatch, perform_bind, first]
  cases added : builder.addRule rule with
  | ok result => rfl
  | error why =>
    have look : (get : Call Builder).perform builder = (.ok builder, builder) := rfl
    simp only [perform_bind, look]
    cases policy : builder.network.config.invalidRules with
    | failFast => rfl
    | skip => rfl

theorem perform_addRules (rules : List Definition) (builder : Builder) :
    (addRules rules).perform builder =
      match builder.addRules rules with
      | (grown, none) => (.ok (), grown)
      | (grown, some why) => (.error why, grown) := by
  induction rules generalizing builder with
  | nil => rfl
  | cons rule rest ih =>
    have split : addRules (rule :: rest) = addOrSkip rule >>= fun _ => addRules rest := rfl
    rw [split, perform_bind, perform_addOrSkip]
    cases added : builder.addRule rule with
    | ok result =>
      rw [Builder.addRules_of_ok rest added, ← ih]
    | error why =>
      cases policy : builder.network.config.invalidRules with
      | failFast => rw [Builder.addRules_failFast rest added policy]
      | skip => rw [Builder.addRules_skip rest added policy, ← ih]

end Call

/-! ## What a batch leaves behind -/

/-- The rules of a batch are all offered to the network, and the invalid ones recorded. -/
theorem addRules_eq_of_skip (builder : Builder) (rules : List Definition)
    (policy : builder.network.config.invalidRules = .skip) :
    builder.addRules rules =
      (⟨rules.foldl offer builder.network, builder.skipped ++ refused rules⟩, none) := by
  induction rules generalizing builder with
  | nil => simp [Builder.addRules, refused]
  | cons rule rest ih =>
    cases verdict : refusal? rule with
    | none =>
      obtain ⟨attached, added⟩ := builder.exists_addRule verdict
      rw [Builder.addRules_of_ok rest added, ih _ (config_offer builder.network rule ▸ policy)]
      simp [refused, verdict]
    | some why =>
      have failed := builder.addRule_eq_error_iff.mpr verdict
      have others := ih ⟨builder.network, builder.skipped ++ [⟨rule.name, why⟩]⟩ policy
      rw [Builder.addRules_skip rest failed policy, others]
      simp [refused, verdict, offer_of_refusal? _ verdict]

/-- The rules before the first invalid one are offered to the network. -/
theorem addRules_eq_of_failFast (builder : Builder) (rules : List Definition)
    (policy : builder.network.config.invalidRules = .failFast) :
    builder.addRules rules =
      (⟨(rules.takeWhile valid).foldl offer builder.network, builder.skipped⟩,
        rules.findSome? refusal?) := by
  induction rules generalizing builder with
  | nil => rfl
  | cons rule rest ih =>
    cases verdict : refusal? rule with
    | none =>
      obtain ⟨attached, added⟩ := builder.exists_addRule verdict
      rw [Builder.addRules_of_ok rest added, ih _ (config_offer builder.network rule ▸ policy)]
      simp [valid, verdict]
    | some why =>
      have failed := builder.addRule_eq_error_iff.mpr verdict
      rw [Builder.addRules_failFast rest failed policy]
      simp [valid, verdict]

/-- A batch is a batch after a batch, if the first is not stopped. -/
theorem addRules_append (rules more : List Definition) (builder : Builder) :
    builder.addRules (rules ++ more) =
      match builder.addRules rules with
      | (grown, none) => grown.addRules more
      | (grown, some why) => (grown, some why) := by
  induction rules generalizing builder with
  | nil => rfl
  | cons rule rest ih =>
    rw [List.cons_append]
    cases added : builder.addRule rule with
    | ok result => rw [Builder.addRules_of_ok _ added, Builder.addRules_of_ok _ added, ih]
    | error why =>
      cases policy : builder.network.config.invalidRules with
      | failFast =>
        rw [Builder.addRules_failFast _ added policy, Builder.addRules_failFast _ added policy]
      | skip => rw [Builder.addRules_skip _ added policy, Builder.addRules_skip _ added policy, ih]

/-- Offering a list of rules is offering the valid ones. -/
theorem foldl_offer_filter_valid (rules : List Definition) (network : Network) :
    (rules.filter valid).foldl offer network = rules.foldl offer network := by
  induction rules generalizing network with
  | nil => rfl
  | cons rule rest ih =>
    cases verdict : refusal? rule with
    | none => simp [valid, verdict, ih]
    | some why => simp [valid, verdict, ih, offer_of_refusal? network verdict]

/-- A builder accepts exactly the valid rules, rejects the others with the same
error as an empty builder, and is not changed by a rejected rule. A batch that
leaves invalid rules out ends with the network of its valid rules, and records
the others in order. A batch that stops gives the error of the first invalid
rule, if there is one, and ends with the network of the rules before it. Either
way, a batch is a batch after a batch, if the first is not stopped. -/
theorem batch_policy (builder : Builder) :
    (∀ rule, (builder.addRule rule).isOk = valid rule ∧
      (∀ why, builder.addRule rule = .error why ↔ refusal? rule = some why) ∧
      (Call.addRule rule).perform builder =
        match builder.addRule rule with
        | .ok (attached, grown) => (.ok attached, grown)
        | .error why => (.error why, builder)) ∧
    (∀ rules, ((Call.addRules rules).perform builder =
        match builder.addRules rules with
        | (grown, none) => (.ok (), grown)
        | (grown, some why) => (.error why, grown)) ∧
      match builder.network.config.invalidRules with
      | .skip =>
          builder.addRules rules =
            (⟨(builder.addRules (rules.filter valid)).1.network,
              builder.skipped ++ refused rules⟩, none)
      | .failFast =>
          builder.addRules rules =
            (⟨(builder.addRules (rules.takeWhile valid)).1.network, builder.skipped⟩,
              rules.findSome? refusal?)) ∧
    ∀ rules more, builder.addRules (rules ++ more) =
      match builder.addRules rules with
      | (grown, none) => grown.addRules more
      | (grown, some why) => (grown, some why) := by
  refine ⟨fun rule => ⟨?_, fun why => builder.addRule_eq_error_iff,
    Call.perform_addRule rule builder⟩, fun rules => ⟨Call.perform_addRules rules builder, ?_⟩,
    fun rules more => addRules_append rules more builder⟩
  · cases verdict : refusal? rule with
    | none =>
      obtain ⟨attached, added⟩ := builder.exists_addRule verdict
      rw [added, valid, verdict]
      rfl
    | some why =>
      rw [builder.addRule_eq_error_iff.mpr verdict, valid, verdict]
      rfl
  · cases policy : builder.network.config.invalidRules with
    | skip => simp only [addRules_eq_of_skip _ _ policy, foldl_offer_filter_valid]
    | failFast => simp only [addRules_eq_of_failFast _ _ policy, List.takeWhile_idem]

end RuleNet.Network
