import RuleNet.Engine.Run

/-!
# Reports

The outcome of a run: the activations of every node, and the rules whose
terminal node has any.
-/

namespace RuleNet.Engine

open Memory (Fact)
open Network (AttachedRule NodeId)

/-- The outcome of running a memory through a network. -/
structure Report where
  network : Network
  /-- The activations of every node, in the order of the nodes. -/
  activations : List (List Token)
deriving Inhabited, Repr

/-- The report of a run. -/
def Report.ofRun (network : Network) (facts : List Fact) : Report :=
  ⟨network, run network facts⟩

/-- A rule that applies. -/
structure RuleMatch where
  rule : AttachedRule
  /-- The activations of the rule's terminal node. -/
  tokens : List Token
deriving Inhabited, Repr

namespace Report

/-- The activations of a node; an unknown one has none. -/
def activationsOf (report : Report) (id : NodeId) : List Token :=
  report.activations[id]?.getD []

/-- The node has an activation. -/
def isActive (report : Report) (id : NodeId) : Bool :=
  !(report.activationsOf id).isEmpty

/-- The rules that apply, in the order they were attached. -/
def ruleMatches (report : Report) : List RuleMatch :=
  (report.network.rules.filter fun rule => report.isActive rule.terminal).map fun rule =>
    ⟨rule, report.activationsOf rule.terminal⟩

/-- The names of the rules that apply, in the order they were attached. -/
def matchedNames (report : Report) : List String :=
  (report.network.rules.filter fun rule => report.isActive rule.terminal).map AttachedRule.name

/-- The number of nodes that have an activation. -/
def activeCount (report : Report) : Nat :=
  report.activations.countP fun tokens => !tokens.isEmpty

end Report

end RuleNet.Engine
