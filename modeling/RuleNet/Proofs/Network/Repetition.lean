import RuleNet.Proofs.Engine.Conservation
import RuleNet.Proofs.Network.Batches
import RuleNet.Proofs.Network.Unfolding

/-!
# Rules that come again

When texts are compared, the node of an accepted rule has the key of the rule's
condition. Whatever happens to the builder afterwards, no other node gets this
key, so a later rule whose condition has the same text is attached to the same
node, and nothing has to be made for it.

* `Distinct.find?_key`: a key leads to the one node that has it.
* `addRule_of_holds`: a rule whose text is known adds nothing but itself.
* `addRule_again`: a rule that comes again, after any further calls.
-/

namespace RuleNet.Network

open Markup (Element)
open Rule (Definition Key)
open Settings (Config)

section Lookup

variable {network : Network} (wf : WellFormed network) (distinct : network.Distinct)
  (confirm : network.config.confirmCanonicalText = true)
include wf distinct confirm

/-- When texts are compared, the key of a node leads to this node. -/
theorem Distinct.find?_key {id : Nat} {plan : Plan} (unfolds : network.Unfolds id plan) :
    network.find? plan.key = some id := by
  obtain ⟨other, found⟩ := find?_of_holds wf ⟨id, unfolds⟩
  obtain ⟨plan', unfolds', same⟩ := unfolds_of_find? wf confirm (unfolds.genuine wf) found
  rw [found, distinct unfolds' unfolds same]

/-- A rule whose condition has the text of a node is attached to this node, and
changes nothing else. -/
theorem addRule_of_holds {id : Nat} {known : Plan} (unfolds : network.Unfolds id known)
    {rule : Definition} {plan : Plan} (planned : Plan.ofRule rule = .ok plan)
    (same : plan.key.canonical = known.key.canonical) :
    network.addRule rule =
      .ok (⟨rule.name, id, rule.action⟩, network.attach ⟨rule.name, id, rule.action⟩) := by
  obtain ⟨element, -, made⟩ := Plan.ofRule_eq_ok planned
  have genuine : Genuine plan.key := (Plan.sound_of_ofElement made).genuine
  have keys : plan.key = known.key := genuine.ext (unfolds.genuine wf) same
  have found : network.find? plan.key = some id := by
    rw [keys]
    exact distinct.find?_key wf confirm unfolds
  rw [addRule, planned, Except.map, instantiate_of_find? plan found]

end Lookup

/-! ## Rules after other rules -/

theorem Plan.exists_ofRule {rule : Definition} (accepted : valid rule = true) :
    ∃ plan, Plan.ofRule rule = .ok plan := by
  cases planned : Plan.ofRule rule with
  | ok plan => exact ⟨plan, rfl⟩
  | error why =>
    rw [valid, refusal?_eq_some.mpr planned] at accepted
    cases accepted

/-- When texts are compared, the terminal of an accepted rule stands for a plan with the key
of the rule's condition. -/
theorem Builder.exists_terminal {builder grown : Builder} {rule : Definition}
    {attached : AttachedRule} (added : builder.addRule rule = .ok (attached, grown))
    (wf : WellFormed builder.network)
    (confirm : builder.network.config.confirmCanonicalText = true) :
    ∃ element own, rule.condition = .ok element ∧
      grown.network.Unfolds attached.terminal own ∧ own.key = Key.ofElement element := by
  obtain ⟨network, inner, rfl⟩ := Builder.addRule_eq_ok added
  obtain ⟨plan, planned, rfl, rfl⟩ := Network.addRule_eq_ok inner
  obtain ⟨element, chosen, made⟩ := Plan.ofRule_eq_ok planned
  obtain ⟨own, unfolds, key⟩ := unfolds_instantiate (Plan.sound_of_ofElement made) wf confirm
  exact ⟨element, own, chosen, unfolds_attach.mpr unfolds,
    key.trans (Plan.key_of_ofElement made)⟩

/-- When texts are compared, the terminal of an accepted rule has the key of the
rule's condition, and keeps it whatever calls follow. Every valid rule whose
condition has the same text is then attached to this terminal. The nodes, their
edges and the index stay as they are; the rules get one more at the end. -/
theorem addRule_again {config : Config} {builder grown later : Builder}
    (reachable : Reachable config builder) (confirm : config.confirmCanonicalText = true)
    {rule : Definition} {attached : AttachedRule}
    (added : builder.addRule rule = .ok (attached, grown)) (continues : Continues grown later) :
    ∃ element node, rule.condition = .ok element ∧
      later.network.node? attached.terminal = some node ∧
      node.key? = some (Key.ofElement element) ∧
      ∀ again other, valid again = true → again.condition = .ok other →
        (Key.ofElement other).canonical = (Key.ofElement element).canonical →
          let repeated : AttachedRule := ⟨again.name, attached.terminal, again.action⟩
          later.addRule again =
            .ok (repeated, { later with network := later.network.attach repeated }) := by
  have between : Reachable config grown := reachable.addRule added
  have reached : Reachable config later := continues.reachable between
  have extension := (continues.growth between.wellFormed).extends between.wellFormed
  have confirm' : later.network.config.confirmCanonicalText = true := by
    rw [reached.config_eq, confirm]
  obtain ⟨element, own, chosen, stands, key⟩ :=
    Builder.exists_terminal added reachable.wellFormed (reachable.config_eq ▸ confirm)
  have unfolds : later.network.Unfolds attached.terminal own := stands.extends extension
  obtain ⟨node, found, carried⟩ := unfolds.exists_key
  refine ⟨element, node, chosen, found, key ▸ carried, ?_⟩
  intro again other accepted chosen' same repeated
  obtain ⟨plan, planned⟩ := Plan.exists_ofRule accepted
  obtain ⟨element', chosen'', made⟩ := Plan.ofRule_eq_ok planned
  cases chosen'.symm.trans chosen''
  have texts : plan.key.canonical = own.key.canonical := by
    rw [Plan.key_of_ofElement made, key, same]
  rw [Builder.addRule, addRule_of_holds reached.wellFormed reached.distinct confirm' unfolds
    planned texts]
  rfl

/-- A disjunction comes again with a blank text after a rule that shares its
operands and a rule that fails. -/
theorem addRule_again_disjunction :
    let axe : Element := { name := "axe" }
    let bow : Element := { name := "bow" }
    let either : Element := { name := "or", children := [axe, bow] }
    let spaced : Element := { name := "or", text := some "\n", children := [axe, bow] }
    let first := (Builder.ofConfig {}).offer (.ofCondition "armed" either)
    let later := (first.offer (.ofCondition "both" { name := "and", children := [bow, axe] })).offer
      { name := "unconditional" }
    either ≠ spaced ∧
      (Key.ofElement spaced).canonical = (Key.ofElement either).canonical ∧
      later.network.size = 5 ∧
      later.addRule (.ofCondition "armed again" spaced) = .ok (⟨"armed again", 3, none⟩,
        { later with network := later.network.attach ⟨"armed again", 3, none⟩ }) := by
  intro axe bow either spaced first later
  have added : (Builder.ofConfig {}).addRule (.ofCondition "armed" either) =
      .ok (⟨"armed", 3, none⟩, first) := rfl
  have continues : Continues first later := .offer _ (.offer _ .refl)
  have same : (Key.ofElement spaced).canonical = (Key.ofElement either).canonical := by decide
  obtain ⟨element, node, chosen, -, -, again⟩ := addRule_again .start rfl added continues
  cases chosen
  exact ⟨by decide, same, by decide, again _ spaced rfl rfl same⟩

end RuleNet.Network
