import RuleNet.Network.Graph

/-!
# Walking the network

The nodes that can be reached from the root along successor edges, in
depth-first order: a node comes before everything reached through it, and its
successors are taken in order.
-/

namespace RuleNet.Network

/-- The walk with a stack of nodes to visit. `visited` lists the nodes seen so
far, last one first. -/
def walk (network : Network) : Nat → List NodeId → List NodeId → List NodeId
  | 0, visited, _ => visited.reverse
  | _ + 1, visited, [] => visited.reverse
  | fuel + 1, visited, id :: stack =>
      if visited.contains id then walk network fuel visited stack
      else walk network fuel (id :: visited) (network.successors id ++ stack)

/-- The number of edges. -/
def edgeCount (network : Network) : Nat :=
  (network.nodes.flatMap Node.successors).length

/-- The nodes that can be reached from the root, each once, in depth-first
order. Every edge puts one node onto the stack, so there are no more steps
than edges and two. -/
def reachable (network : Network) : List NodeId :=
  network.walk (network.edgeCount + 2) [] [rootId]

end RuleNet.Network
