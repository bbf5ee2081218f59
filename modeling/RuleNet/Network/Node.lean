import RuleNet.Rule.Condition
import RuleNet.Rule.Key

/-!
# Nodes

A network is a graph of nodes. The root is its entry; a pattern node tests
facts against a condition; a join node combines what its operands produced.
Every node but the root has the structural key of the element that defined it.

Nodes are referred to by their position in the network. A node is created
after the nodes it reads from, so the order of positions is a topological one.
-/

namespace RuleNet.Network

open Rule (Condition Key Operator)

/-- The position of a node in its network. -/
abbrev NodeId := Nat

/-- The position of the root. -/
def rootId : NodeId := 0

/-- What a node does. -/
inductive NodeKind where
  /-- The entry, which every pattern node reads from. -/
  | root
  /-- A test of single facts. -/
  | pattern (key : Key) (condition : Condition)
  /-- A combination of the operands' activations. -/
  | join (key : Key) (operator : Operator) (operands : List NodeId)
deriving Inhabited, Repr

/-- A node with its edges. -/
structure Node where
  id : NodeId
  kind : NodeKind
  /-- The nodes that read from this one, in the order they were linked. -/
  successors : List NodeId := []
  /-- The nodes this one reads from, one for each of its inputs. -/
  predecessors : List NodeId := []
deriving Inhabited, Repr

namespace Node

/-- The node is the entry. -/
def isRoot (node : Node) : Bool :=
  match node.kind with
  | .root => true
  | _ => false

/-- The node tests facts. -/
def isPattern (node : Node) : Bool :=
  match node.kind with
  | .pattern _ _ => true
  | _ => false

/-- The node combines activations. -/
def isJoin (node : Node) : Bool :=
  match node.kind with
  | .join _ _ _ => true
  | _ => false

/-- The structural key; the root has none. -/
def key? (node : Node) : Option Key :=
  match node.kind with
  | .root => none
  | .pattern key _ => some key
  | .join key _ _ => some key

/-- The node's canonical text is the given one. -/
def hasCanonical (node : Node) (text : String) : Bool :=
  node.key?.any fun key => key.canonical == text

/-- The node with a further successor behind those it has. -/
def appendSuccessor (id : NodeId) (node : Node) : Node :=
  { node with successors := node.successors ++ [id] }

/-- The node with a further successor, unless it has it already. -/
def addSuccessor (id : NodeId) (node : Node) : Node :=
  if node.successors.contains id then node else node.appendSuccessor id

@[simp] theorem addSuccessor_id (id : NodeId) (node : Node) :
    (node.addSuccessor id).id = node.id := by
  rw [addSuccessor]
  split <;> rfl

@[simp] theorem addSuccessor_kind (id : NodeId) (node : Node) :
    (node.addSuccessor id).kind = node.kind := by
  rw [addSuccessor]
  split <;> rfl

@[simp] theorem addSuccessor_predecessors (id : NodeId) (node : Node) :
    (node.addSuccessor id).predecessors = node.predecessors := by
  rw [addSuccessor]
  split <;> rfl

@[simp] theorem addSuccessor_key? (id : NodeId) (node : Node) :
    (node.addSuccessor id).key? = node.key? := by
  rw [key?, addSuccessor_kind, key?]

/-- A successor that is new comes last. -/
theorem addSuccessor_of_not_mem {id : NodeId} {node : Node} (new : id ∉ node.successors) :
    node.addSuccessor id = node.appendSuccessor id := by
  rw [addSuccessor, if_neg (by simpa using new)]

theorem addSuccessor_addSuccessor (id : NodeId) (node : Node) :
    (node.addSuccessor id).addSuccessor id = node.addSuccessor id := by
  by_cases known : id ∈ node.successors <;> simp [addSuccessor, appendSuccessor, known]

end Node

end RuleNet.Network
