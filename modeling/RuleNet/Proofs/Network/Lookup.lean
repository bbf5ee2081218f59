import Mathlib.Data.List.Find
import Mathlib.Order.Bounds.Basic
import RuleNet.Proofs.Network.Growth

/-!
# Looking nodes up

A node is looked up by the index, which leads from a hash to some of the nodes.
The same node is found by looking at all of them in the order of their
creation (`scan`), whatever calls made the network and however often hashes
collide.

* `WellFormed.find?_confirmed`, `WellFormed.find?_trusting`: the index gives what a
  scan for the text gives, or for the hash alone if texts are not compared.
* `oldest_scan`: a scan gives the least identifier.
* `reachable_find?_oldest`: both together, for the networks that a builder can reach.
-/

namespace RuleNet.Network

open Rule (Definition Key)
open Settings (Config)

/-! ## Scanning -/

/-- The node carries a key of which the property holds. -/
def Carries (network : Network) (wanted : Key → Prop) (id : Nat) : Prop :=
  ∃ node key, network.node? id = some node ∧ node.key? = some key ∧ wanted key

/-- The answer to a search for keys with a property: the least identifier of a
node that carries one, if there is such a node. -/
inductive Oldest (network : Network) (wanted : Key → Prop) : Option NodeId → Prop
  | found {id : Nat} :
      IsLeast { id | network.Carries wanted id } id → Oldest network wanted (some id)
  | absent : (∀ id, ¬ network.Carries wanted id) → Oldest network wanted none

/-- The first node of the network that carries a wanted key. -/
def scan (network : Network) (wanted : Key → Bool) : Option NodeId :=
  (List.range network.size).find? fun id =>
    (network.node? id).any fun node => node.key?.any wanted

section Scan

variable {network : Network} {wanted : Key → Bool}

theorem carries_iff {id : Nat} :
    network.Carries (fun key => wanted key = true) id ↔
      ((network.node? id).any fun node => node.key?.any wanted) = true := by
  simp only [Carries, Option.any_eq_true, exists_and_left]

/-- Nodes are looked at in the order of their identifiers, so the first one has the least. -/
theorem oldest_scan (network : Network) (wanted : Key → Bool) :
    network.Oldest (fun key => wanted key = true) (network.scan wanted) := by
  cases answer : network.scan wanted with
  | some id =>
    obtain ⟨holds, -, earlier⟩ := List.find?_range_eq_some.mp answer
    refine .found ⟨carries_iff.mpr holds, ?_⟩
    intro other carries
    refine Nat.le_of_not_lt fun before => ?_
    have skipped := earlier other before
    rw [carries_iff.mp carries] at skipped
    cases skipped
  | none =>
    refine .absent fun id carries => ?_
    have ⟨_, _, found, _⟩ := carries
    have inside := List.mem_range.mpr (WellFormed.lt_size found)
    exact List.find?_eq_none.mp answer id inside (carries_iff.mp carries)

end Scan

/-! ## The index finds what a scan finds -/

namespace WellFormed

variable {network : Network} (wf : WellFormed network)
include wf

/-- Under the hash of a key the index lists the nodes that carry this hash, so the
first accepted one is the first of all nodes that has the hash and is accepted. -/
theorem find?_eq (key : Key) :
    network.find? key = (List.range network.size).find? fun id =>
      ((network.node? id).any fun node => node.key?.any fun own => own.hash == key.hash) &&
        network.accepts key id := by
  rw [find?, wf.candidates_eq, hashed, List.find?_filter]
  simp only [Bool.decide_and, Bool.decide_eq_true]

/-- When texts are compared, a lookup is a scan for the text. -/
theorem find?_confirmed (confirm : network.config.confirmCanonicalText = true) (text : String) :
    network.find? (.ofCanonical text) = network.scan fun key => key.canonical == text := by
  rw [wf.find?_eq, scan]
  refine List.find?_congr fun id _ => ?_
  simp only [accepts, confirm, Bool.not_true, Bool.false_or, Key.canonical_ofCanonical]
  cases found : network.node? id with
  | none => rfl
  | some node =>
    cases carried : node.key? with
    | none => simp [carried]
    | some key =>
      -- A text has one hash, so a node with the text is listed under the hash.
      by_cases same : key.canonical = text
      · have hash : key.hash = (Key.ofCanonical text).hash := by
          rw [wf.genuine found carried, same]
        simp [Node.hasCanonical, carried, same, hash]
      · simp [Node.hasCanonical, carried, same]

/-- When texts are not compared, a lookup is a scan for the hash. -/
theorem find?_trusting (trust : network.config.confirmCanonicalText = false) (text : String) :
    network.find? (.ofCanonical text) =
      network.scan fun key => key.hash == Hash.hashText text.toList := by
  rw [wf.find?_eq, scan]
  refine List.find?_congr fun id _ => ?_
  simp only [accepts, trust, Bool.not_false, Bool.true_or, Bool.and_true, Key.hash_ofCanonical]

end WellFormed

/-- Whatever calls a builder has seen, looking a text up in its network gives the
least identifier of a node that has the text, or nothing if no node has it. Under
settings by which texts are not compared, the hash of the text takes its place. -/
theorem reachable_find?_oldest {config : Config} {builder : Builder}
    (reachable : Reachable config builder) (text : String) :
    (config.confirmCanonicalText = true →
      builder.network.Oldest (fun key => key.canonical = text)
        (builder.network.find? (.ofCanonical text))) ∧
    (config.confirmCanonicalText = false →
      builder.network.Oldest (fun key => key.hash = Hash.hashText text.toList)
        (builder.network.find? (.ofCanonical text))) := by
  have wf := reachable.wellFormed
  rw [← reachable.config_eq]
  constructor
  · intro confirm
    rw [wf.find?_confirmed confirm]
    simpa only [beq_iff_eq] using oldest_scan builder.network fun key => key.canonical == text
  · intro trust
    rw [wf.find?_trusting trust]
    simpa only [beq_iff_eq] using
      oldest_scan builder.network fun key => key.hash == Hash.hashText text.toList

/-- A pattern that two rules share is found under its text, whether texts are
compared or not, and the text of no element is not found. -/
theorem reachable_find?_oldest_shared :
    let rules := [Definition.ofCondition "armed" { name := "axe" },
      Definition.ofCondition "unarmed" { name := "not", children := [{ name := "axe" }] }]
    let careful := ((Builder.ofConfig {}).addRules rules).1.network
    let trusting := ((Builder.ofConfig { confirmCanonicalText := false }).addRules rules).1.network
    careful.find? (.ofCanonical "<axe/>") = some 1 ∧
      careful.Oldest (fun key => key.canonical = "<axe/>") (some 1) ∧
      trusting.find? (.ofCanonical "<axe/>") = some 1 ∧
      trusting.Oldest (fun key => key.hash = Hash.hashText "<axe/>".toList) (some 1) ∧
      careful.Oldest (fun key => key.canonical = "axe") none := by
  intro rules careful trusting
  have known : careful.find? (.ofCanonical "<axe/>") = some 1 := by decide
  have known' : trusting.find? (.ofCanonical "<axe/>") = some 1 := by decide
  have unknown : careful.find? (.ofCanonical "axe") = none := by decide
  have reachable : Reachable {} ((Builder.ofConfig {}).addRules rules).1 := .addRules rules .start
  have reachable' : Reachable { confirmCanonicalText := false }
      ((Builder.ofConfig { confirmCanonicalText := false }).addRules rules).1 :=
    .addRules rules .start
  have first := (reachable_find?_oldest reachable "<axe/>").1 rfl
  have second := (reachable_find?_oldest reachable' "<axe/>").2 rfl
  have third := (reachable_find?_oldest reachable "axe").1 rfl
  exact ⟨known, known ▸ first, known', known' ▸ second, unknown ▸ third⟩

end RuleNet.Network
