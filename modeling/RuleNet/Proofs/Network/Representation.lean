import Mathlib.Data.List.Nodup
import RuleNet.Proofs.Network.Unfolding

/-!
# The representation of a network

Edges, operands, positions, keys and the index are kept apart, and every step of
growing updates several of them. `Coherent` lists what a reader of a network can
rely on: what nodes read from, who reads from them, and that the index has every
node but the root once, under the hash of its key.

* `KeyIndex.Tidy.insert`: registering a node keeps one bucket for every hash and
  leaves none empty.
* `WellFormed.perm_indexed`: the buckets together are the nodes but the root.
* `reachable_coherent`: all of this for every network that a builder can reach.
* `reachable_texts_nodup`: no two nodes of such a network have one text.
-/

namespace RuleNet.Network

open Markup (Element)
open Rule (Condition Definition Key Operator)
open Settings (Config)

/-! ## The index -/

namespace KeyIndex

/-- Every hash has one bucket, and no bucket is empty. -/
structure Tidy (index : KeyIndex) : Prop where
  hashes_nodup : (index.buckets.map Prod.fst).Nodup
  filled : ∀ bucket ∈ index.buckets, bucket.2 ≠ []

theorem tidy_empty : Tidy {} where
  hashes_nodup := List.nodup_nil
  filled := fun _ member => nomatch member

/-- A known hash keeps its bucket, a new one gets a bucket behind the others. -/
theorem map_fst_insertInto (hash : UInt64) (id : NodeId)
    (buckets : List (UInt64 × List NodeId)) :
    (insertInto hash id buckets).map Prod.fst =
      if hash ∈ buckets.map Prod.fst then buckets.map Prod.fst
      else buckets.map Prod.fst ++ [hash] := by
  induction buckets with
  | nil => rfl
  | cons bucket rest ih =>
    obtain ⟨other, ids⟩ := bucket
    unfold insertInto
    by_cases here : other = hash
    · simp [here]
    · have apart : hash ≠ other := fun same => here same.symm
      rw [if_neg here, List.map_cons, ih]
      by_cases known : hash ∈ rest.map Prod.fst
      · simp [known]
      · simp [known, apart]

theorem ne_nil_of_mem_insertInto {hash : UInt64} {id : NodeId}
    {buckets : List (UInt64 × List NodeId)} (filled : ∀ bucket ∈ buckets, bucket.2 ≠ [])
    {bucket : UInt64 × List NodeId} (member : bucket ∈ insertInto hash id buckets) :
    bucket.2 ≠ [] := by
  induction buckets with
  | nil =>
    cases List.mem_singleton.mp member
    exact List.cons_ne_nil _ _
  | cons first rest ih =>
    obtain ⟨other, ids⟩ := first
    unfold insertInto at member
    split at member
    · rcases List.mem_cons.mp member with rfl | later
      · exact List.append_ne_nil_of_right_ne_nil _ (List.cons_ne_nil _ _)
      · exact filled bucket (List.mem_cons_of_mem _ later)
    · rcases List.mem_cons.mp member with rfl | later
      · exact filled _ List.mem_cons_self
      · exact ih (fun bucket inside => filled bucket (List.mem_cons_of_mem _ inside)) later

namespace Tidy

variable {index : KeyIndex}

theorem insert (tidy : index.Tidy) (key : Key) (id : NodeId) : (index.insert key id).Tidy where
  hashes_nodup := by
    show ((insertInto key.hash id index.buckets).map Prod.fst).Nodup
    rw [map_fst_insertInto]
    split
    · exact tidy.hashes_nodup
    · next new =>
      rw [← List.concat_eq_append]
      exact tidy.hashes_nodup.concat new
  filled := fun _ member => ne_nil_of_mem_insertInto tidy.filled member

/-- A bucket is what is looked up under its hash. -/
theorem candidates_of_mem (tidy : index.Tidy) {hash : UInt64} {ids : List NodeId}
    (member : (hash, ids) ∈ index.buckets) : index.candidates hash = ids := by
  obtain ⟨before, behind, split⟩ := List.append_of_mem member
  have distinct := tidy.hashes_nodup
  rw [split, List.map_append, List.map_cons, List.nodup_append] at distinct
  have found : index.buckets.lookup hash = some ids := by
    refine List.lookup_eq_some_iff.mpr ⟨before, behind, split, fun bucket early => ?_⟩
    have apart := distinct.2.2 bucket.1 (List.mem_map_of_mem early) hash List.mem_cons_self
    exact bne_iff_ne.mpr apart.symm
  rw [candidates, found, Option.getD_some]

end Tidy

/-- What is looked up under a hash stands in a bucket. -/
theorem mem_buckets_of_mem_candidates {index : KeyIndex} {hash : UInt64} {id : NodeId}
    (member : id ∈ index.candidates hash) : (hash, index.candidates hash) ∈ index.buckets := by
  unfold candidates at member ⊢
  cases found : index.buckets.lookup hash with
  | none =>
    rw [found] at member
    cases member
  | some ids =>
    obtain ⟨before, behind, split, -⟩ := List.lookup_eq_some_iff.mp found
    rw [split]
    exact List.mem_append_right _ List.mem_cons_self

end KeyIndex

theorem Grows.tidy {old new : Network} (grows : Grows old new) (tidy : old.index.Tidy) :
    new.index.Tidy := by
  cases grows with
  | pattern genuine => exact tidy.insert _ _
  | join genuine count known => exact tidy.insert _ _
  | attach inner => exact tidy

theorem Growth.tidy {old new : Network} (growth : Growth old new) (tidy : old.index.Tidy) :
    new.index.Tidy := by
  induction growth with
  | refl => exact tidy
  | tail _ grows ih => exact grows.tidy ih

namespace WellFormed

variable {network : Network} (wf : WellFormed network)
include wf

/-- Every node but the root has a key. -/
theorem exists_key {id : Nat} (inner : network.IsInner id) :
    ∃ node key, network.node? id = some node ∧ node.key? = some key := by
  obtain ⟨plan, unfolds⟩ := exists_unfolds wf inner
  obtain ⟨node, found, carried⟩ := unfolds.exists_key
  exact ⟨node, plan.key, found, carried⟩

section Tidy

variable (tidy : network.index.Tidy)
include tidy

theorem bucket_eq {bucket : UInt64 × List NodeId} (member : bucket ∈ network.index.buckets) :
    bucket.2 = network.hashed bucket.1 := by
  rw [← wf.candidates_eq, tidy.candidates_of_mem member]

theorem mem_indexed {id : Nat} :
    id ∈ network.index.buckets.flatMap Prod.snd ↔ network.IsInner id := by
  rw [List.mem_flatMap]
  constructor
  · rintro ⟨bucket, member, inside⟩
    rw [wf.bucket_eq tidy member] at inside
    obtain ⟨node, key, found, carried, -⟩ := mem_hashed.mp inside
    exact wf.isInner_of_key? found carried
  · intro inner
    obtain ⟨node, key, found, carried⟩ := wf.exists_key inner
    have listed : id ∈ network.index.candidates key.hash := by
      rw [wf.candidates_eq]
      exact mem_hashed.mpr ⟨node, key, found, carried, rfl⟩
    exact ⟨_, KeyIndex.mem_buckets_of_mem_candidates listed, listed⟩

theorem nodup_indexed : (network.index.buckets.flatMap Prod.snd).Nodup := by
  rw [List.nodup_flatMap]
  constructor
  · intro bucket member
    rw [wf.bucket_eq tidy member]
    exact List.nodup_range.filter _
  · -- A node has one key, so it is in the bucket of one hash only.
    have apart := List.pairwise_map.mp tidy.hashes_nodup
    refine apart.imp_of_mem fun {bucket other} member member' differ id inside inside' => ?_
    rw [wf.bucket_eq tidy member] at inside
    rw [wf.bucket_eq tidy member'] at inside'
    obtain ⟨node, key, found, carried, hash⟩ := mem_hashed.mp inside
    obtain ⟨node', key', found', carried', hash'⟩ := mem_hashed.mp inside'
    cases found.symm.trans found'
    cases carried.symm.trans carried'
    exact differ (hash.symm.trans hash')

/-- The buckets together are the nodes but the root, each of them once. -/
theorem perm_indexed :
    (network.index.buckets.flatMap Prod.snd).Perm (List.range' 1 (network.size - 1)) := by
  rw [List.perm_ext_iff_of_nodup (wf.nodup_indexed tidy) (List.nodup_range' 1)]
  intro id
  rw [wf.mem_indexed tidy, List.mem_range'_1]
  have nonempty := wf.nonempty
  constructor
  · rintro ⟨positive, inside⟩
    exact ⟨positive, by omega⟩
  · rintro ⟨positive, inside⟩
    exact ⟨positive, by omega⟩

end Tidy

end WellFormed

/-! ## Networks that a builder can reach -/

/-- What a reader of a network relies on. -/
structure Coherent (network : Network) : Prop where
  /-- Every node has its position as its identifier. -/
  id_eq : ∀ {i : Nat} {node}, network.node? i = some node → node.id = i
  /-- The first node is a root without predecessors and key, -/
  root : ∃ node, network.node? rootId = some node ∧ node.kind = .root ∧
    node.predecessors = [] ∧ node.key? = none
  /-- and the only root. -/
  root_unique : ∀ {i : Nat} {node}, network.node? i = some node → node.kind = .root → i = rootId
  /-- A pattern reads from the root only. -/
  pattern : ∀ {i : Nat} {node key condition}, network.node? i = some node →
    node.kind = .pattern key condition → node.predecessors = [rootId]
  /-- A join reads from its operands. They are as many as its operator takes,
  and nodes before it other than the root. -/
  join : ∀ {i : Nat} {node key operator operands}, network.node? i = some node →
    node.kind = .join key operator operands →
    node.predecessors = operands ∧ operands.length = operator.arity ∧
      ∀ operand : Nat, operand ∈ operands → network.IsInner operand ∧ operand < i
  /-- The successors of a node are the nodes that have it as a predecessor, in
  strictly ascending order. -/
  successors : ∀ {i : Nat} {node}, network.node? i = some node →
    (∀ reader : Nat, reader ∈ node.successors ↔ i ∈ network.predecessors reader) ∧
      node.successors.Pairwise (fun a b : Nat => a < b)
  /-- The index has one bucket for every hash, and none is empty. -/
  tidy : network.index.Tidy
  /-- The buckets together are the nodes but the root, each of them once. -/
  indexed : (network.index.buckets.flatMap Prod.snd).Perm (List.range' 1 (network.size - 1))
  /-- A node is in the bucket of the hash of its own key. -/
  hash_eq : ∀ bucket ∈ network.index.buckets, ∀ id : Nat, id ∈ bucket.2 →
    ∃ node key, network.node? id = some node ∧ node.key? = some key ∧ key.hash = bucket.1
  /-- Rules are attached to nodes other than the root. -/
  terminals : ∀ rule ∈ network.rules, network.IsInner rule.terminal

theorem WellFormed.coherent {network : Network} (wf : WellFormed network)
    (tidy : network.index.Tidy) : network.Coherent where
  id_eq := wf.id_eq
  root := by
    obtain ⟨node, found⟩ := WellFormed.exists_node wf.nonempty
    have kind := wf.kind_of_not_isInner found fun inner => Nat.lt_irrefl 0 inner.1
    have reads := wf.reads found
    rw [kind] at reads
    exact ⟨node, found, kind, reads.2, by rw [Node.key?, kind]⟩
  root_unique := by
    intro i node found kind
    have reads := wf.reads found
    rw [kind] at reads
    exact reads.1
  pattern := by
    intro i node key condition found kind
    have reads := wf.reads found
    rw [kind] at reads
    exact reads.2
  join := by
    intro i node key operator operands found kind
    have reads := wf.reads found
    rw [kind] at reads
    refine ⟨reads.1, reads.2.1, fun operand member => ?_⟩
    obtain ⟨positive, before⟩ := reads.2.2 operand member
    exact ⟨⟨positive, Nat.lt_trans before (WellFormed.lt_size found)⟩, before⟩
  successors := by
    intro i node found
    refine ⟨fun reader => wf.mem_successors found, ?_⟩
    rw [wf.successors_eq found]
    exact List.pairwise_lt_range.filter _
  tidy := tidy
  indexed := wf.perm_indexed tidy
  hash_eq := by
    intro bucket member id inside
    rw [wf.bucket_eq tidy member] at inside
    exact mem_hashed.mp inside
  terminals := wf.terminals

/-- Whatever calls a builder has seen, whatever their outcome, edges, operands,
positions, keys, index and rules of its network agree. -/
theorem reachable_coherent {config : Config} {builder : Builder}
    (reachable : Reachable config builder) : builder.network.Coherent :=
  reachable.wellFormed.coherent (reachable.growth.tidy KeyIndex.tidy_empty)

/-- One pattern is both operands of a conjunction, and a rule without a condition fails. -/
theorem reachable_coherent_pair :
    let pair : Element := { name := "and", children := [{ name := "axe" }, { name := "axe" }] }
    let builder := ((Builder.ofConfig {}).offer (.ofCondition "pair" pair)).offer
      { name := "unconditional" }
    builder.network.Coherent ∧
      builder.network.nodes.map Node.predecessors = [[], [0], [1, 1]] ∧
      builder.network.nodes.map Node.successors = [[1], [2], []] ∧
      (builder.network.index.buckets.flatMap Prod.snd).Perm [1, 2] := by
  intro pair builder
  have reachable : Reachable {} builder := .offer _ (.offer _ .start)
  have coherent := reachable_coherent reachable
  exact ⟨coherent, by decide, by decide, coherent.indexed⟩

/-- Nodes with one text are one node. -/
theorem Distinct.eq_of_canonical {network : Network} (distinct : network.Distinct)
    (wf : WellFormed network) {i j : Nat} {node other : Node} {key key' : Key}
    (found : network.node? i = some node) (carried : node.key? = some key)
    (found' : network.node? j = some other) (carried' : other.key? = some key')
    (same : key.canonical = key'.canonical) : i = j := by
  have keys : key = key' := (wf.genuine found carried).ext (wf.genuine found' carried') same
  obtain ⟨plan, unfolds⟩ := exists_unfolds wf (wf.isInner_of_key? found carried)
  obtain ⟨plan', unfolds'⟩ := exists_unfolds wf (wf.isInner_of_key? found' carried')
  obtain ⟨node', there, own⟩ := unfolds.exists_key
  obtain ⟨other', there', own'⟩ := unfolds'.exists_key
  cases found.symm.trans there
  cases found'.symm.trans there'
  refine distinct unfolds unfolds' (Option.some.inj ?_)
  rw [← own, ← own', carried, carried', keys]

/-- Whatever calls a builder has seen, and whether it compares texts or not, the
texts of the nodes of its network are pairwise different. -/
theorem reachable_texts_nodup {config : Config} {builder : Builder}
    (reachable : Reachable config builder) :
    ((builder.network.nodes.filterMap Node.key?).map Key.canonical).Nodup := by
  rw [List.Nodup, List.pairwise_map, List.pairwise_filterMap, List.pairwise_iff_getElem]
  intro i j inside inside' before key carried key' carried' same
  have found : builder.network.node? i = some builder.network.nodes[i] :=
    List.getElem?_eq_getElem inside
  have found' : builder.network.node? j = some builder.network.nodes[j] :=
    List.getElem?_eq_getElem inside'
  have equal := reachable.distinct.eq_of_canonical reachable.wellFormed found carried found'
    carried' same
  exact Nat.ne_of_lt before equal

/-- A pattern that two rules share, once alone and once below a negation. -/
theorem reachable_texts_nodup_shared :
    let axe : Element := { name := "axe" }
    let builder := ((Builder.ofConfig {}).offer (.ofCondition "armed" axe)).offer
      (.ofCondition "unarmed" { name := "not", children := [axe] })
    (builder.network.nodes.filterMap Node.key?).map Key.canonical =
        ["<axe/>", "<not><axe/></not>"] ∧
      ((builder.network.nodes.filterMap Node.key?).map Key.canonical).Nodup := by
  intro axe builder
  have reachable : Reachable {} builder := .offer _ (.offer _ .start)
  exact ⟨by decide, reachable_texts_nodup reachable⟩

end RuleNet.Network
