import RuleNet.Network.Builder
import RuleNet.Proofs.Network.Expression

/-!
# Well-formed networks

The edges of a network are stored twice, as predecessors and as successors, and
joins list their operands a third time; the index repeats the hashes of the
keys. `WellFormed` says that all of this agrees, and that every node reads from
nodes before it.

A network of the root alone is well-formed (`WellFormed.ofConfig`), and stays so
when a node is added that reads from nodes before it (`WellFormed.addNode`) and
when a rule is attached to one of its nodes (`WellFormed.attach`). A pattern is
linked to the root in its own way, which makes no difference as long as the network
is well-formed (`WellFormed.addPattern_eq`).
-/

namespace RuleNet.Network

open Rule (Condition Key Operator)

/-! ## Changing a list at several positions -/

/-- A change that is the same when made twice reaches every listed position
exactly once, however often it is listed. -/
theorem getElem?_foldl_modify {α : Type} {f : Nat → α → α} (twice : ∀ i x, f i (f i x) = f i x)
    (positions : List Nat) (xs : List α) (i : Nat) :
    (positions.foldl (fun xs position => xs.modify position (f position)) xs)[i]? =
      if i ∈ positions then xs[i]?.map (f i) else xs[i]? := by
  induction positions generalizing xs with
  | nil => simp
  | cons position rest ih =>
    rw [List.foldl_cons, ih, List.getElem?_modify]
    by_cases here : position = i
    · subst here
      by_cases again : position ∈ rest
      · simp [again, twice, Function.comp_def]
      · simp [again]
    · have apart : i ≠ position := fun same => here same.symm
      simp [here, apart]

theorem length_foldl_modify {α : Type} (f : Nat → α → α) (positions : List Nat) (xs : List α) :
    (positions.foldl (fun xs position => xs.modify position (f position)) xs).length =
      xs.length := by
  induction positions generalizing xs with
  | nil => rfl
  | cons position rest ih => rw [List.foldl_cons, ih, List.length_modify]

/-! ## The invariant -/

/-- What a node of this kind reads from, when it stands at the given position. -/
def NodeKind.ReadsFrom (position : Nat) (predecessors : List NodeId) : NodeKind → Prop
  | .root => position = rootId ∧ predecessors = []
  | .pattern _ _ => 0 < position ∧ predecessors = [rootId]
  | .join _ operator operands =>
      predecessors = operands ∧ operands.length = operator.arity ∧
        ∀ operand : Nat, operand ∈ operands → 0 < operand ∧ operand < position

/-- The position of a node that is not the root. -/
def IsInner (network : Network) (id : Nat) : Prop := 0 < id ∧ id < network.size

/-- The positions of the nodes that read from the given one. -/
def readers (network : Network) (id : NodeId) : List NodeId :=
  (List.range network.size).filter fun reader => (network.predecessors reader).contains id

/-- The positions of the nodes whose key has the given hash. -/
def hashed (network : Network) (hash : UInt64) : List NodeId :=
  (List.range network.size).filter fun id =>
    (network.node? id).any fun node => node.key?.any fun key => key.hash == hash

/-- Nodes, edges, index and rules agree. -/
structure WellFormed (network : Network) : Prop where
  nonempty : 0 < network.size
  /-- Every node knows its position. -/
  id_eq : ∀ {i : Nat} {node}, network.node? i = some node → node.id = i
  /-- Every node reads from what its kind says, and only from nodes before it. -/
  reads : ∀ {i : Nat} {node}, network.node? i = some node → node.kind.ReadsFrom i node.predecessors
  /-- The successors of a node are the nodes that read from it. -/
  successors_eq : ∀ {i : Nat} {node}, network.node? i = some node →
    node.successors = network.readers i
  genuine : ∀ {i : Nat} {node key}, network.node? i = some node → node.key? = some key → Genuine key
  /-- The index lists the nodes by the hashes of their keys. -/
  candidates_eq : ∀ hash, network.index.candidates hash = network.hashed hash
  terminals : ∀ rule ∈ network.rules, network.IsInner rule.terminal

namespace WellFormed

variable {network : Network}

theorem lt_size {i : Nat} {node : Node} (found : network.node? i = some node) :
    i < network.size :=
  (List.getElem?_eq_some_iff.mp found).1

theorem exists_node {i : Nat} (inside : i < network.size) :
    ∃ node, network.node? i = some node :=
  ⟨network.nodes[i], List.getElem?_eq_getElem inside⟩

/-- Every node reads from nodes before it. -/
theorem predecessor_lt (wf : WellFormed network) {i source : Nat} {node : Node}
    (found : network.node? i = some node) (member : source ∈ node.predecessors) : source < i := by
  have reads := wf.reads found
  cases kind : node.kind with
  | root =>
    rw [kind] at reads
    rw [reads.2] at member
    cases member
  | pattern key condition =>
    rw [kind] at reads
    rw [reads.2, List.mem_singleton] at member
    rw [member]
    exact reads.1
  | join key operator operands =>
    rw [kind] at reads
    rw [reads.1] at member
    exact (reads.2.2 source member).2

/-- The successors of a node are the nodes that read from it, and come after it. -/
theorem mem_successors (wf : WellFormed network) {i reader : Nat} {node : Node}
    (found : network.node? i = some node) :
    reader ∈ node.successors ↔ i ∈ network.predecessors reader := by
  rw [wf.successors_eq found, readers, List.mem_filter, List.mem_range, List.contains_iff_mem]
  refine ⟨fun reading => reading.2, fun reading => ⟨?_, reading⟩⟩
  rcases Nat.lt_or_ge reader network.size with inside | outside
  · exact inside
  · have none : network.node? reader = none := List.getElem?_eq_none outside
    rw [predecessors, none] at reading
    cases reading

end WellFormed

/-! ## Growing by one node -/

theorem size_addNode (network : Network) (key : Key) (kind : NodeKind) (inputs : List NodeId) :
    (network.addNode key kind inputs).2.size = network.size + 1 := by
  rw [size, addNode, List.length_append, link, length_foldl_modify]
  rfl

/-- After a node was added, its inputs have one more successor. -/
theorem node?_addNode (network : Network) (key : Key) (kind : NodeKind) (inputs : List NodeId)
    (i : Nat) :
    (network.addNode key kind inputs).2.node? i =
      if i = network.size then
        some { id := network.size, kind := kind, predecessors := inputs }
      else if i ∈ inputs then (network.node? i).map (Node.addSuccessor network.size)
      else network.node? i := by
  have linked := getElem?_foldl_modify (f := fun _ => Node.addSuccessor network.nodes.length)
    (fun _ => Node.addSuccessor_addSuccessor _) inputs network.nodes i
  have length := length_foldl_modify (fun _ => Node.addSuccessor network.nodes.length) inputs
    network.nodes
  rw [node?, addNode, link, List.getElem?_append, length, linked]
  rcases Nat.lt_trichotomy i network.nodes.length with before | last | behind
  · simp [before, Nat.ne_of_lt before, size, node?]
  · simp [last, size]
  · have outside : ¬ i < network.nodes.length := by omega
    have apart : i ≠ network.nodes.length := by omega
    have further : i - network.nodes.length ≠ 0 := by omega
    simp [outside, apart, further, size, node?]

theorem predecessors_addNode (network : Network) (key : Key) (kind : NodeKind)
    (inputs : List NodeId) (i : Nat) :
    (network.addNode key kind inputs).2.predecessors i =
      if i = network.size then inputs else network.predecessors i := by
  rw [predecessors, node?_addNode]
  by_cases last : i = network.size
  · simp [last]
  · by_cases read : i ∈ inputs
    · simp [last, read, predecessors, Option.map_map, Function.comp_def]
    · simp [last, read, predecessors]

theorem readers_addNode (network : Network) (key : Key) (kind : NodeKind) (inputs : List NodeId)
    (i : Nat) :
    (network.addNode key kind inputs).2.readers i =
      network.readers i ++ if i ∈ inputs then [network.size] else [] := by
  have before : ∀ reader ∈ List.range network.size,
      ((network.addNode key kind inputs).2.predecessors reader).contains i =
        (network.predecessors reader).contains i := by
    intro reader member
    rw [predecessors_addNode, if_neg (Nat.ne_of_lt (List.mem_range.mp member))]
  rw [readers, size_addNode, List.range_succ, List.filter_append, List.filter_congr before, readers]
  by_cases read : i ∈ inputs <;> simp [predecessors_addNode, read]

theorem hashed_addNode (network : Network) {key : Key} {kind : NodeKind} {inputs : List NodeId}
    (carries : { id := network.size, kind := kind, predecessors := inputs : Node }.key? = some key)
    (hash : UInt64) :
    (network.addNode key kind inputs).2.hashed hash =
      network.hashed hash ++ if hash = key.hash then [network.size] else [] := by
  have before : ∀ id ∈ List.range network.size,
      (((network.addNode key kind inputs).2.node? id).any fun node =>
        node.key?.any fun key => key.hash == hash) =
      ((network.node? id).any fun node => node.key?.any fun key => key.hash == hash) := by
    intro id member
    rw [node?_addNode, if_neg (Nat.ne_of_lt (List.mem_range.mp member))]
    cases network.node? id with
    | none => simp
    | some node => split <;> simp
  rw [hashed, size_addNode, List.range_succ, List.filter_append, List.filter_congr before, hashed]
  by_cases same : hash = key.hash
  · simp [node?_addNode, carries, same]
  · have differ : ¬ key.hash = hash := fun equal => same equal.symm
    simp [node?_addNode, carries, same, differ]

/-- A node of the grown network is the new one, or an old one with at most one
more successor. -/
theorem node?_addNode_inv {network : Network} {key : Key} {kind : NodeKind}
    {inputs : List NodeId} {i : Nat} {node : Node}
    (found : (network.addNode key kind inputs).2.node? i = some node) :
    (i = network.size ∧ node = { id := network.size, kind := kind, predecessors := inputs }) ∨
    (∃ old, network.node? i = some old ∧ i < network.size ∧
      node = if i ∈ inputs then old.addSuccessor network.size else old) := by
  rw [node?_addNode] at found
  by_cases last : i = network.size
  · rw [if_pos last] at found
    cases found
    exact .inl ⟨last, rfl⟩
  · rw [if_neg last] at found
    right
    by_cases read : i ∈ inputs
    · rw [if_pos read] at found
      obtain ⟨old, there, rfl⟩ := Option.map_eq_some_iff.mp found
      exact ⟨old, there, WellFormed.lt_size there, by rw [if_pos read]⟩
    · rw [if_neg read] at found
      exact ⟨node, found, WellFormed.lt_size found, by rw [if_neg read]⟩

/-- After a pattern was added, a node is the new one, or does what it did before. -/
theorem node?_addPattern_inv {network : Network} {key : Key} {condition : Condition} {i : Nat}
    {node : Node} (found : (network.addPattern key condition).2.node? i = some node) :
    node.kind = .pattern key condition ∨
      ∃ old, network.node? i = some old ∧ node.kind = old.kind := by
  rw [node?, addPattern, List.getElem?_modify] at found
  obtain ⟨unlinked, there, rfl⟩ := Option.map_eq_some_iff.mp found
  have kept : (if rootId = i then unlinked.appendSuccessor network.nodes.length
      else unlinked).kind = unlinked.kind := by split <;> rfl
  rw [List.getElem?_append] at there
  split at there
  · exact .inr ⟨unlinked, there, kept⟩
  · have new := List.mem_singleton.mp (List.mem_of_getElem? there)
    exact .inl (kept.trans (congrArg Node.kind new))

namespace WellFormed

variable {network : Network}

/-- A network of the root alone. -/
theorem ofConfig (config : Settings.Config) : WellFormed { config := config } := by
  have only : ∀ {i : Nat} {node}, ({ config := config } : Network).node? i = some node →
      i = rootId ∧ node = { id := rootId, kind := .root } := by
    intro i node found
    cases i with
    | zero => cases found; exact ⟨rfl, rfl⟩
    | succ i => cases found
  constructor
  case nonempty => exact Nat.one_pos
  case id_eq => intro i node found; obtain ⟨rfl, rfl⟩ := only found; rfl
  case reads => intro i node found; obtain ⟨rfl, rfl⟩ := only found; exact ⟨rfl, rfl⟩
  case successors_eq => intro i node found; obtain ⟨rfl, rfl⟩ := only found; rfl
  case genuine =>
    intro i node key found carried
    obtain ⟨rfl, rfl⟩ := only found
    cases carried
  case candidates_eq => intro hash; rfl
  case terminals => intro rule member; cases member

/-- A node that would stand last reads from nodes of the network. -/
theorem input_lt (wf : WellFormed network) {kind : NodeKind} {inputs : List NodeId}
    (reads : kind.ReadsFrom network.size inputs) {input : Nat} (member : input ∈ inputs) :
    input < network.size := by
  cases kind with
  | root => rw [reads.2] at member; cases member
  | pattern key condition =>
    rw [reads.2, List.mem_singleton] at member
    rw [member]
    exact wf.nonempty
  | join key operator operands => exact (reads.2.2 input (reads.1 ▸ member)).2

/-- Nothing reads from behind the end of the network. -/
theorem readers_size (wf : WellFormed network) : network.readers network.size = [] := by
  refine List.filter_eq_nil_iff.mpr fun reader member reading => ?_
  have inside : reader < network.size := List.mem_range.mp member
  obtain ⟨node, found⟩ := exists_node inside
  rw [List.contains_iff_mem, predecessors, found] at reading
  exact Nat.lt_asymm inside (wf.predecessor_lt found reading)

theorem size_not_mem_successors (wf : WellFormed network) {i : Nat} {node : Node}
    (found : network.node? i = some node) : network.size ∉ node.successors := by
  rw [wf.successors_eq found, readers, List.mem_filter, List.mem_range]
  exact fun inside => Nat.lt_irrefl _ inside.1

/-- The root of a well-formed network cannot have a new pattern as its successor yet, so
linking the pattern only once would not change anything. -/
theorem addPattern_eq (wf : WellFormed network) (key : Key) (condition : Condition) :
    network.addPattern key condition = network.addNode key (.pattern key condition) [rootId] := by
  obtain ⟨config, nodes, index, rules⟩ := network
  cases nodes with
  | nil => exact absurd wf.nonempty (Nat.lt_irrefl 0)
  | cons root rest =>
    have found : Network.node? ⟨config, root :: rest, index, rules⟩ rootId = some root := rfl
    have linked : root.addSuccessor (root :: rest).length =
        root.appendSuccessor (root :: rest).length :=
      Node.addSuccessor_of_not_mem (wf.size_not_mem_successors found)
    simp only [addPattern, Network.addNode, link, rootId, List.foldl_cons, List.foldl_nil,
      List.cons_append, List.modify_zero_cons, linked]

/-- A node that reads from nodes of the network can be added. -/
theorem addNode (wf : WellFormed network) {key : Key} {kind : NodeKind} {inputs : List NodeId}
    (genuine : Genuine key)
    (carries : { id := network.size, kind := kind, predecessors := inputs : Node }.key? = some key)
    (reads : kind.ReadsFrom network.size inputs) :
    WellFormed (network.addNode key kind inputs).2 := by
  constructor
  case nonempty => rw [size_addNode]; exact Nat.succ_pos _
  case id_eq =>
    intro i node found
    rcases node?_addNode_inv found with ⟨rfl, rfl⟩ | ⟨old, there, -, rfl⟩
    · rfl
    · rw [← wf.id_eq there]
      split <;> simp
  case reads =>
    intro i node found
    rcases node?_addNode_inv found with ⟨rfl, rfl⟩ | ⟨old, there, -, rfl⟩
    · exact reads
    · have before := wf.reads there
      split
      · rwa [Node.addSuccessor_kind, Node.addSuccessor_predecessors]
      · exact before
  case successors_eq =>
    intro i node found
    rw [readers_addNode]
    rcases node?_addNode_inv found with ⟨rfl, rfl⟩ | ⟨old, there, -, rfl⟩
    · have outside : network.size ∉ inputs := fun member =>
        Nat.lt_irrefl _ (wf.input_lt reads member)
      rw [wf.readers_size, if_neg outside]
      rfl
    · rw [← wf.successors_eq there]
      split
      · rw [Node.addSuccessor_of_not_mem (wf.size_not_mem_successors there)]
        rfl
      · rw [List.append_nil]
  case genuine =>
    intro i node carried found has
    rcases node?_addNode_inv found with ⟨rfl, rfl⟩ | ⟨old, there, -, rfl⟩
    · rw [carries] at has
      cases has
      exact genuine
    · refine wf.genuine there ?_
      rw [← has]
      split <;> simp
  case candidates_eq =>
    intro hash
    rw [hashed_addNode network carries, ← wf.candidates_eq]
    refine (KeyIndex.candidates_insert network.index key network.size hash).trans ?_
    split <;> simp
  case terminals =>
    intro rule member
    obtain ⟨inner, inside⟩ := wf.terminals rule member
    exact ⟨inner, by rw [size_addNode]; omega⟩

/-- A pattern that reads from the root can be added. -/
theorem addNode_pattern (wf : WellFormed network) {key : Key} (genuine : Genuine key)
    (condition : Condition) :
    WellFormed (network.addNode key (.pattern key condition) [rootId]).2 :=
  wf.addNode genuine rfl ⟨wf.nonempty, rfl⟩

theorem attach (wf : WellFormed network) {rule : AttachedRule}
    (inner : network.IsInner rule.terminal) : WellFormed (network.attach rule) where
  nonempty := wf.nonempty
  id_eq := wf.id_eq
  reads := wf.reads
  successors_eq := wf.successors_eq
  genuine := wf.genuine
  candidates_eq := wf.candidates_eq
  terminals := by
    intro other member
    rcases List.mem_append.mp member with before | last
    · exact wf.terminals other before
    · rw [List.mem_singleton.mp last]
      exact inner

end WellFormed

end RuleNet.Network
