import RuleNet.Engine.Join
import RuleNet.Network.Graph

/-!
# Running a network

A run tests the facts of a memory against every pattern and hands the
activations on to the joins. Nodes are taken in the order of their positions,
which is a topological order; each node delivers its activations to every
input of its successors that reads from it.
-/

namespace RuleNet.Engine

open Memory (Fact)
open Network (Node NodeId)
open Rule (Condition)
open Settings (Config)

/-! ## Patterns -/

/-- A fact can match the condition as far as names tell: the names are equal,
or the condition is a leaf condition with a wildcard name. -/
def isCandidate (config : Config) (condition : Condition) (fact : Fact) : Bool :=
  (!condition.isGroup && config.isWildcard condition.name) || fact.name == condition.name

/-- The activations of a pattern: one for every candidate that matches, up to
the limit. -/
def activate (config : Config) (condition : Condition) (facts : List Placed) : List Token :=
  ((facts.filter fun placed => isCandidate config condition placed.fact).filterMap fun placed =>
    (condition.match? config.isWildcard placed.fact).map (Token.single placed)).take
      config.activationLimit.toNat

/-! ## Propagation -/

/-- The activations that wait at the inputs of every node, one list for each input. -/
abbrev Inboxes := List (List (List Token))

/-- Empty inputs for every node. -/
def emptyInboxes (network : Network) : Inboxes :=
  network.nodes.map fun node => node.predecessors.map fun _ => []

/-- The activations of one node, given what waits at its inputs. -/
def produce (network : Network) (facts : List Placed) (inboxes : Inboxes) (node : Node) :
    List Token :=
  match node.kind with
  | .root => []
  | .pattern _ condition => activate network.config condition facts
  | .join _ operator _ =>
      combine operator (inboxes[node.id]?.getD []) network.config.activationLimit.toNat

/-- The inputs of a node after an activation list came from `source`: every
input that reads from it holds the list. -/
def fill (source : NodeId) (tokens : List Token) (predecessors : List NodeId)
    (slots : List (List Token)) : List (List Token) :=
  List.zipWith (fun predecessor slot => if predecessor = source then tokens else slot)
    predecessors slots

/-- The inputs after a node has delivered its activations to its successors. -/
def deliver (network : Network) (inboxes : Inboxes) (node : Node) (tokens : List Token) : Inboxes :=
  if tokens.isEmpty then inboxes
  else
    node.successors.foldl (fun inboxes successor =>
      inboxes.modify successor (fill node.id tokens (network.predecessors successor))) inboxes

/-- A run in progress: what waits at the inputs, and the activations of the
nodes taken so far. -/
structure Progress where
  inboxes : Inboxes
  activations : List (List Token) := []
deriving Inhabited, Repr

/-- One node is taken. -/
def Progress.step (network : Network) (facts : List Placed) (progress : Progress) (node : Node) :
    Progress :=
  let tokens := produce network facts progress.inboxes node
  ⟨deliver network progress.inboxes node tokens, progress.activations ++ [tokens]⟩

/-- The activations of every node, in the order of the nodes. -/
def run (network : Network) (facts : List Fact) : List (List Token) :=
  (network.nodes.foldl (Progress.step network (place facts))
    { inboxes := emptyInboxes network }).activations

end RuleNet.Engine
