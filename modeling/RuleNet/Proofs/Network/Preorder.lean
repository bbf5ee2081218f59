import Mathlib.Algebra.BigOperators.Fin
import RuleNet.Network.Traversal
import RuleNet.Proofs.Network.Growth

/-!
# The depth-first order

The walk from the root keeps a stack. A node is put onto it once for every edge
that leads to it, and whether it was visited before is asked only when it is
taken. `Round` is what one such step does; `Visits` is the traversal by
recursion, which needs no stack.

* `Round.pending_eq`: a round uses up one of the pending visits, so every walk ends.
* `Visits.rounds`: the stack does what the recursion does, and leaves what lies
  below as it is.
* `walk_eq`: the walk gives what the rounds lead to.
* `reachable_preorder`: for the networks that a builder can reach, the order is that
  of the recursion and has every node once.
-/

namespace RuleNet.Network

open Markup (Element)
open Rule (Definition)
open Settings (Config)

variable {network : Network}

/-! ## The traversal by recursion -/

/-- The traversal of several nodes one after the other, from the list of the nodes
visited before to the list of those visited in the end. A node that was visited is
skipped. Any other one is visited, and then its successors are, before the nodes
behind it. -/
inductive Visits (network : Network) : List NodeId → List NodeId → List NodeId → Prop
  | done {visited : List NodeId} : Visits network visited [] visited
  | skip {visited rest after : List NodeId} {id : NodeId} :
      id ∈ visited → Visits network visited rest after →
      Visits network visited (id :: rest) after
  | visit {visited rest below after : List NodeId} {id : NodeId} :
      id ∉ visited → Visits network (visited ++ [id]) (network.successors id) below →
      Visits network below rest after → Visits network visited (id :: rest) after

/-- There is an edge from the first node to the second. -/
abbrev Leads (network : Network) (source reader : NodeId) : Prop :=
  reader ∈ network.successors source

namespace Visits

variable {visited ids after : List NodeId}

/-- The recursion has one outcome. -/
theorem unique (visits : network.Visits visited ids after) {other : List NodeId}
    (visits' : network.Visits visited ids other) : after = other := by
  induction visits generalizing other with
  | done =>
    cases visits'
    rfl
  | skip seen _ ih =>
    cases visits' with
    | skip _ rest => exact ih rest
    | visit new => exact absurd seen new
  | visit new _ _ ihBelow ihRest =>
    cases visits' with
    | skip seen => exact absurd seen new
    | visit _ below rest =>
      cases ihBelow below
      exact ihRest rest

theorem exists_split (front : List NodeId) {back : List NodeId}
    (visits : network.Visits visited (front ++ back) after) :
    ∃ middle, network.Visits visited front middle ∧ network.Visits middle back after := by
  induction front generalizing visited with
  | nil => exact ⟨visited, .done, visits⟩
  | cons id front ih =>
    cases visits with
    | skip seen rest =>
      obtain ⟨middle, first, second⟩ := ih rest
      exact ⟨middle, .skip seen first, second⟩
    | visit new below rest =>
      obtain ⟨middle, first, second⟩ := ih rest
      exact ⟨middle, .visit new below first, second⟩

theorem nodup (visits : network.Visits visited ids after) (before : visited.Nodup) :
    after.Nodup := by
  induction visits with
  | done => exact before
  | skip _ _ ih => exact ih before
  | visit new _ _ ihBelow ihRest =>
    rw [← List.concat_eq_append] at ihBelow
    exact ihRest (ihBelow (before.concat new))

theorem subset (visits : network.Visits visited ids after) : visited ⊆ after := by
  induction visits with
  | done => exact List.Subset.refl _
  | skip _ _ ih => exact ih
  | visit _ _ _ ihBelow ihRest =>
    exact List.Subset.trans (List.subset_append_left _ _) (List.Subset.trans ihBelow ihRest)

/-- The nodes that were to be visited are. -/
theorem mem (visits : network.Visits visited ids after) {id : NodeId} (asked : id ∈ ids) :
    id ∈ after := by
  induction visits with
  | done => cases asked
  | skip seen rest ih =>
    rcases List.mem_cons.mp asked with rfl | later
    · exact rest.subset seen
    · exact ih later
  | visit _ below rest _ ihRest =>
    rcases List.mem_cons.mp asked with rfl | later
    · exact rest.subset (below.subset (List.mem_append_right _ List.mem_cons_self))
    · exact ihRest later

/-- With a node all its successors are visited. -/
theorem successors (visits : network.Visits visited ids after) {id : NodeId}
    (listed : id ∈ after) : id ∈ visited ∨ network.successors id ⊆ after := by
  induction visits with
  | done => exact .inl listed
  | skip _ _ ih => exact ih listed
  | visit _ below rest ihBelow ihRest =>
    rcases ihRest listed with early | closed
    · rcases ihBelow early with earlier | closed
      · rcases List.mem_append.mp earlier with before | own
        · exact .inl before
        · rw [List.mem_singleton] at own
          exact .inr fun reader edge => rest.subset (below.mem (own ▸ edge))
      · exact .inr (List.Subset.trans closed rest.subset)
    · exact .inr closed

/-- A node that is visited is reached from one that was to be visited. -/
theorem exists_path (visits : network.Visits visited ids after) {id : NodeId}
    (listed : id ∈ after) :
    id ∈ visited ∨ ∃ start ∈ ids, Relation.ReflTransGen network.Leads start id := by
  induction visits with
  | done => exact .inl listed
  | skip _ _ ih =>
    rcases ih listed with before | ⟨start, asked, path⟩
    · exact .inl before
    · exact .inr ⟨start, List.mem_cons_of_mem _ asked, path⟩
  | @visit _ _ _ _ first _ _ _ ihBelow ihRest =>
    rcases ihRest listed with early | ⟨start, asked, path⟩
    · rcases ihBelow early with earlier | ⟨start, edge, path⟩
      · rcases List.mem_append.mp earlier with before | own
        · exact .inl before
        · rw [List.mem_singleton] at own
          exact .inr ⟨first, List.mem_cons_self, own ▸ .refl⟩
      · exact .inr ⟨first, List.mem_cons_self, .head edge path⟩
    · exact .inr ⟨start, List.mem_cons_of_mem _ asked, path⟩

end Visits

/-! ## The rounds of the walk -/

/-- A walk in progress: the nodes visited so far in their order, and the stack of
the nodes to visit, the next one first. -/
structure Walking where
  visited : List NodeId
  stack : List NodeId

/-- One round: the next node is taken from the stack. If it was not visited before,
it is now, and its successors are put onto the stack. The node has to be one of
the network; with any other one the walk could not go on. -/
inductive Round (network : Network) : Walking → Walking → Prop
  | skip {visited stack : List NodeId} {id : Nat} :
      id < network.size → id ∈ visited → Round network ⟨visited, id :: stack⟩ ⟨visited, stack⟩
  | visit {visited stack : List NodeId} {id : Nat} {node : Node} :
      network.node? id = some node → id ∉ visited →
      Round network ⟨visited, id :: stack⟩ ⟨visited ++ [id], node.successors ++ stack⟩

theorem Round.unique {state next other : Walking} (round : network.Round state next)
    (round' : network.Round state other) : next = other := by
  cases round with
  | skip _ seen =>
    cases round' with
    | skip => rfl
    | visit _ new => exact absurd seen new
  | visit found new =>
    cases round' with
    | skip _ seen => exact absurd seen new
    | visit found' _ =>
      cases found.symm.trans found'
      rfl

theorem successors_of_node? {id : Nat} {node : Node} (found : network.node? id = some node) :
    network.successors id = node.successors := by
  rw [successors, found]
  rfl

/-- How often a node is still taken: once for each entry of the stack, and once for
each edge from a node that is not visited yet. -/
def pending (network : Network) (state : Walking) : Nat :=
  state.stack.length + ∑ id ∈ Finset.range network.size with id ∉ state.visited,
    (network.successors id).length

/-- A round takes one node, and visiting one trades its edges for entries of the stack. -/
theorem Round.pending_eq {state next : Walking} (round : network.Round state next) :
    network.pending state = network.pending next + 1 := by
  cases round with
  | skip inside seen =>
    simp only [pending, List.length_cons]
    omega
  | @visit visited stack id node found new =>
    have unvisited : id ∈ (Finset.range network.size).filter (· ∉ visited) :=
      Finset.mem_filter.mpr ⟨Finset.mem_range.mpr (WellFormed.lt_size found), new⟩
    have left : (Finset.range network.size).filter (· ∉ visited ++ [id]) =
        ((Finset.range network.size).filter (· ∉ visited)).erase id := by
      ext other
      simp only [Finset.mem_filter, Finset.mem_erase, List.mem_append, List.mem_singleton, not_or]
      tauto
    have trade := Finset.add_sum_erase _ (fun id => (network.successors id).length) unvisited
    rw [successors_of_node? found] at trade
    simp only [pending, left, ← trade, List.length_cons, List.length_append]
    omega

/-- No walk goes on forever. -/
theorem wellFounded_round (network : Network) :
    WellFounded fun next state => network.Round state next :=
  Subrelation.wf (fun round => Nat.lt_of_lt_of_eq (Nat.lt_succ_self _) round.pending_eq.symm)
    (measure network.pending).wf

/-- A walk that ends has no other way to go: every state on it leads to the end. -/
theorem rounds_to_end {first state : Walking} {order : List NodeId}
    (rounds : Relation.ReflTransGen network.Round first ⟨order, []⟩)
    (reached : Relation.ReflTransGen network.Round first state) :
    Relation.ReflTransGen network.Round state ⟨order, []⟩ := by
  have unique : Relator.RightUnique network.Round := fun _ _ _ => Round.unique
  rcases Relation.ReflTransGen.total_of_right_unique unique reached rounds with later | earlier
  · exact later
  · -- There is no round after the last one.
    rcases Relation.ReflTransGen.cases_head earlier with rfl | ⟨next, round, -⟩
    · exact .refl
    · cases round

/-! ## The walk and the recursion -/

/-- What rounds lead to is what the walk gives, if it may take as many steps as
there are pending visits. -/
theorem walk_eq {state : Walking} {order : List NodeId}
    (rounds : Relation.ReflTransGen network.Round state ⟨order, []⟩) {fuel : Nat}
    (enough : network.pending state ≤ fuel) :
    network.walk fuel state.visited.reverse state.stack = order := by
  induction rounds using Relation.ReflTransGen.head_induction_on generalizing fuel with
  | refl => cases fuel <;> exact List.reverse_reverse order
  | head round _ ih =>
    rw [round.pending_eq] at enough
    obtain ⟨fuel, rfl⟩ := Nat.exists_eq_add_of_le' (Nat.le_of_add_left_le enough)
    have next := ih (Nat.le_of_succ_le_succ enough)
    cases round with
    | skip inside seen => simpa [walk, seen] using next
    | visit found new => simpa [walk, new, successors_of_node? found] using next

/-- All edges lead to nodes of the network. -/
def Closed (network : Network) : Prop :=
  ∀ source reader : Nat, network.Leads source reader → reader < network.size

/-- Nodes of the network stay all there is on the stack. -/
theorem Round.inside (closed : network.Closed) {state next : Walking}
    (round : network.Round state next)
    (inside : ∀ id : Nat, id ∈ state.stack → id < network.size) :
    ∀ id : Nat, id ∈ next.stack → id < network.size := by
  cases round with
  | skip => exact fun id listed => inside id (List.mem_cons_of_mem _ listed)
  | @visit _ _ source _ found =>
    intro id listed
    rcases List.mem_append.mp listed with edge | below
    · rw [← successors_of_node? found] at edge
      exact closed source id edge
    · exact inside id (List.mem_cons_of_mem _ below)

/-- The recursion has an outcome for whatever lies on the stack. -/
theorem exists_visits (closed : network.Closed) (state : Walking)
    (inside : ∀ id : Nat, id ∈ state.stack → id < network.size) :
    ∃ after, network.Visits state.visited state.stack after := by
  -- Induction along the rounds: the stack after a visit is that of the recursive
  -- call followed by the rest, and its traversal can be split there.
  induction state using (wellFounded_round network).induction with
  | _ state ih =>
    obtain ⟨visited, stack⟩ := state
    cases stack with
    | nil => exact ⟨visited, .done⟩
    | cons id rest =>
      have known := inside id List.mem_cons_self
      by_cases seen : id ∈ visited
      · have round : network.Round ⟨visited, id :: rest⟩ ⟨visited, rest⟩ := .skip known seen
        obtain ⟨after, visits⟩ := ih _ round (round.inside closed inside)
        exact ⟨after, .skip seen visits⟩
      · obtain ⟨node, found⟩ := WellFormed.exists_node known
        have round : network.Round ⟨visited, id :: rest⟩
            ⟨visited ++ [id], node.successors ++ rest⟩ := .visit found seen
        obtain ⟨after, visits⟩ := ih _ round (round.inside closed inside)
        obtain ⟨below, first, second⟩ := visits.exists_split node.successors
        rw [← successors_of_node? found] at first
        exact ⟨after, .visit seen first second⟩

/-- What the recursion does, the rounds do, whatever lies below on the stack. -/
theorem Visits.rounds (closed : network.Closed) {visited ids after : List NodeId}
    (visits : network.Visits visited ids after)
    (inside : ∀ id : Nat, id ∈ ids → id < network.size) (stack : List NodeId) :
    Relation.ReflTransGen network.Round ⟨visited, ids ++ stack⟩ ⟨after, stack⟩ := by
  induction visits generalizing stack with
  | done => exact .refl
  | @skip _ _ _ id seen _ ih =>
    have rest := ih (fun other listed => inside other (List.mem_cons_of_mem _ listed)) stack
    exact .head (.skip (inside id List.mem_cons_self) seen) rest
  | @visit _ rest _ _ id new _ _ ihBelow ihRest =>
    obtain ⟨node, found⟩ := WellFormed.exists_node (inside id List.mem_cons_self)
    have below := ihBelow (fun reader edge => closed id reader edge) (rest ++ stack)
    rw [successors_of_node? found] at below
    have behind := ihRest (fun other listed => inside other (List.mem_cons_of_mem _ listed)) stack
    exact .head (.visit found new) (below.trans behind)

/-! ## The whole network -/

theorem edgeCount_eq (network : Network) :
    network.edgeCount = ∑ id ∈ Finset.range network.size, (network.successors id).length := by
  have each : ∀ id : Fin network.nodes.length,
      (network.successors id).length = network.nodes[id.1].successors.length := fun id =>
    congrArg List.length (successors_of_node? (List.getElem?_eq_getElem id.2))
  rw [edgeCount, List.length_flatMap, Finset.sum_range, ← Fin.sum_univ_fun_getElem]
  exact Finset.sum_congr rfl fun id _ => (each id).symm

/-- The root is taken once, and one node for each edge. -/
theorem pending_root (network : Network) :
    network.pending ⟨[], [rootId]⟩ = network.edgeCount + 1 := by
  simp [pending, edgeCount_eq, Nat.add_comm]

namespace WellFormed

theorem closed (wf : WellFormed network) : network.Closed := by
  intro source reader edge
  cases found : network.node? source with
  | none =>
    rw [Leads, successors, found] at edge
    cases edge
  | some node =>
    rw [Leads, successors_of_node? found, wf.successors_eq found, readers, List.mem_filter] at edge
    exact List.mem_range.mp edge.1

/-- Every node but the root reads from a node before it. -/
theorem exists_source (wf : WellFormed network) {id : Nat} (inner : network.IsInner id) :
    ∃ source : Nat, source < id ∧ network.Leads source id := by
  obtain ⟨node, found⟩ := exists_node inner.2
  have reads := wf.reads found
  have reading : ∃ source : Nat, source ∈ node.predecessors := by
    cases kind : node.kind with
    | root =>
      rw [kind] at reads
      exact absurd reads.1 (Nat.ne_of_gt inner.1)
    | pattern key condition =>
      rw [kind] at reads
      rw [reads.2]
      exact ⟨rootId, List.mem_cons_self⟩
    | join key operator operands =>
      rw [kind] at reads
      obtain ⟨same, count, -⟩ := reads
      have positive : 0 < operands.length := by cases operator <;> rw [count] <;> decide
      rw [same]
      exact List.exists_mem_of_length_pos positive
  obtain ⟨source, listed⟩ := reading
  have before := wf.predecessor_lt found listed
  obtain ⟨origin, there⟩ := exists_node (Nat.lt_trans before inner.2)
  refine ⟨source, before, ?_⟩
  rw [Leads, successors_of_node? there, wf.mem_successors there, predecessors, found]
  exact listed

/-- Edges lead from the root to every node. -/
theorem path_from_root (wf : WellFormed network) {id : Nat} (inside : id < network.size) :
    Relation.ReflTransGen network.Leads rootId id := by
  induction id using Nat.strong_induction_on with
  | _ id ih =>
    rcases Nat.eq_zero_or_pos id with rfl | positive
    · exact .refl
    · obtain ⟨source, before, edge⟩ := wf.exists_source ⟨positive, inside⟩
      exact .tail (ih source before (Nat.lt_trans before inside)) edge

/-- The nodes visited from the root are all nodes. -/
theorem mem_visited (wf : WellFormed network) {order : List NodeId}
    (visits : network.Visits [] [rootId] order) {id : Nat} : id ∈ order ↔ id < network.size := by
  constructor
  · intro listed
    rcases visits.exists_path listed with before | ⟨start, asked, path⟩
    · cases before
    · rw [List.mem_singleton] at asked
      rw [asked] at path
      rcases Relation.ReflTransGen.cases_tail path with rfl | ⟨source, -, edge⟩
      · exact wf.nonempty
      · exact wf.closed source id edge
  · intro inside
    -- The visited nodes are closed under edges, so the whole path is visited.
    have path := wf.path_from_root inside
    clear inside
    induction path with
    | refl => exact visits.mem List.mem_cons_self
    | tail _ edge ih =>
      rcases visits.successors ih with before | closed
      · cases before
      · exact closed edge

end WellFormed

/-- Whatever calls a builder has seen, the walk through its network ends. Every state
that it gets to has only nodes of the network on its stack, and leads to the order
that is given in the end. This order is the one of the traversal by recursion from
the root, and has every node of the network exactly once; edges lead from the root
to all of them. -/
theorem reachable_preorder {config : Config} {builder : Builder}
    (reachable : Reachable config builder) :
    let network := builder.network
    let order := network.reachable
    (WellFounded fun next state => network.Round state next) ∧
    (∀ state, Relation.ReflTransGen network.Round ⟨[], [rootId]⟩ state →
      (∀ id : Nat, id ∈ state.stack → id < network.size) ∧
        Relation.ReflTransGen network.Round state ⟨order, []⟩) ∧
    (∀ visited, network.Visits [] [rootId] visited ↔ visited = order) ∧
    order.Nodup ∧ order.Perm (List.range network.size) ∧
    ∀ id : Nat, id < network.size → Relation.ReflTransGen network.Leads rootId id := by
  intro network order
  have wf : WellFormed network := reachable.wellFormed
  have start : ∀ id : Nat, id ∈ [rootId] → id < network.size := by
    intro id listed
    rw [List.mem_singleton.mp listed]
    exact wf.nonempty
  obtain ⟨visited, visits⟩ := exists_visits wf.closed ⟨[], [rootId]⟩ start
  have rounds : Relation.ReflTransGen network.Round ⟨[], [rootId]⟩ ⟨visited, []⟩ :=
    visits.rounds wf.closed start []
  have same : order = visited := walk_eq rounds (pending_root network).le.step
  rw [same]
  have nodup := visits.nodup List.nodup_nil
  refine ⟨wellFounded_round network, fun state reached => ⟨?inside, ?ends⟩,
    fun other => ⟨fun visits' => visits'.unique visits, fun equal => equal ▸ visits⟩, nodup,
    ?perm, fun id => wf.path_from_root⟩
  case inside =>
    induction reached with
    | refl => exact start
    | tail _ round ih => exact round.inside wf.closed ih
  case ends => exact rounds_to_end rounds reached
  case perm =>
    rw [List.perm_ext_iff_of_nodup nodup List.nodup_range]
    intro id
    rw [wf.mem_visited visits, List.mem_range]

/-- Two operators share a pattern: both nodes of the operators are put onto the stack
twice. The shared pattern comes first, and with it the operators that read from it. -/
theorem reachable_preorder_shared :
    let axe : Element := { name := "axe" }
    let either := { name := "or", children := [axe, { name := "bow" }] }
    let both := { name := "and", children := [axe, { name := "sword" }] }
    let rules := [Definition.ofCondition "either" either, Definition.ofCondition "both" both]
    let network := ((Builder.ofConfig {}).addRules rules).1.network
    network.reachable = [0, 1, 3, 5, 2, 4] ∧
      network.Visits [] [rootId] [0, 1, 3, 5, 2, 4] ∧
      Relation.ReflTransGen network.Round ⟨[], [rootId]⟩ ⟨[0, 1, 3, 5, 2, 4], []⟩ ∧
      [0, 1, 3, 5, 2, 4].Perm (List.range network.size) := by
  intro axe either both rules network
  have order : network.reachable = [0, 1, 3, 5, 2, 4] := by decide
  have reachable : Reachable {} ((Builder.ofConfig {}).addRules rules).1 := .addRules rules .start
  obtain ⟨-, rounds, visits, -, perm, -⟩ := reachable_preorder reachable
  rw [show ((Builder.ofConfig {}).addRules rules).1.network.reachable = _ from order]
    at rounds visits perm
  exact ⟨order, (visits _).mpr rfl, (rounds _ .refl).2, perm⟩

end RuleNet.Network
