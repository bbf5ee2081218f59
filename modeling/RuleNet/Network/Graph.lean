import RuleNet.Network.Index
import RuleNet.Settings.Config

/-!
# The network

A network holds its nodes in the order of their creation, the index that finds
a node by its key, and the rules attached to it. It starts with the root alone
and only grows.
-/

namespace RuleNet

open Markup (Element)
open Rule (Condition Key Operator)
open Settings (Config)

namespace Network

/-- A rule of a network: its name, the node that decides whether it applies,
and its action. -/
structure AttachedRule where
  name : String
  /-- The node of the rule's condition. -/
  terminal : NodeId
  action : Option Element := none
deriving DecidableEq, Inhabited, Repr

end Network

/-- A graph of shared nodes with the rules attached to them. -/
structure Network where
  config : Config := {}
  /-- The nodes in the order of their creation, the root first. -/
  nodes : List Network.Node := [{ id := Network.rootId, kind := .root }]
  index : Network.KeyIndex := {}
  /-- The attached rules in the order they were added. -/
  rules : List Network.AttachedRule := []
deriving Inhabited, Repr

namespace Network

/-! ## Looking things up -/

/-- The node at a position. -/
def node? (network : Network) (id : NodeId) : Option Node :=
  network.nodes[id]?

/-- The successors of a node; an unknown one has none. -/
def successors (network : Network) (id : NodeId) : List NodeId :=
  ((network.node? id).map Node.successors).getD []

/-- The predecessors of a node; an unknown one has none. -/
def predecessors (network : Network) (id : NodeId) : List NodeId :=
  ((network.node? id).map Node.predecessors).getD []

/-- The number of nodes, the root included. -/
def size (network : Network) : Nat := network.nodes.length

/-- The number of pattern nodes. -/
def patternCount (network : Network) : Nat := network.nodes.countP Node.isPattern

/-- The number of join nodes. -/
def joinCount (network : Network) : Nat := network.nodes.countP Node.isJoin

/-- The node found under a hash can stand for the key: always, or only with
the key's canonical text, as the settings say. -/
def accepts (network : Network) (key : Key) (id : NodeId) : Bool :=
  !network.config.confirmCanonicalText ||
    (network.node? id).any fun node => node.hasCanonical key.canonical

/-- The oldest node that can stand for the key. -/
def find? (network : Network) (key : Key) : Option NodeId :=
  (network.index.candidates key.hash).find? (network.accepts key)

/-- The rules attached to a node. -/
def rulesAt (network : Network) (id : NodeId) : List AttachedRule :=
  network.rules.filter fun rule => rule.terminal == id

/-! ## Growing -/

/-- The nodes with one more successor at each of the given positions. -/
def link (id : NodeId) (inputs : List NodeId) (nodes : List Node) : List Node :=
  inputs.foldl (fun nodes source => nodes.modify source (Node.addSuccessor id)) nodes

/-- A new node that reads from the given nodes. They are linked to it first, each of them
once. -/
def addNode (network : Network) (key : Key) (kind : NodeKind) (inputs : List NodeId) :
    NodeId × Network :=
  let id := network.nodes.length
  let node : Node := { id := id, kind := kind, predecessors := inputs }
  (id, { network with
    index := network.index.insert key id
    nodes := link id inputs network.nodes ++ [node] })

/-- A new pattern node, which reads from the root. It becomes the last successor of the
root, and it is not asked whether the root has it already. -/
def addPattern (network : Network) (key : Key) (condition : Condition) : NodeId × Network :=
  let id := network.nodes.length
  let node : Node := { id := id, kind := .pattern key condition, predecessors := [rootId] }
  (id, { network with
    index := network.index.insert key id
    nodes := (network.nodes ++ [node]).modify rootId (Node.appendSuccessor id) })

/-- A new join node, which reads from its operands. -/
def addJoin (network : Network) (key : Key) (operator : Operator) (operands : List NodeId) :
    NodeId × Network :=
  network.addNode key (.join key operator operands) operands

/-- The network with one more rule. -/
def attach (network : Network) (rule : AttachedRule) : Network :=
  { network with rules := network.rules ++ [rule] }

end Network

end RuleNet
