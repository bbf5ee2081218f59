import RuleNet.Engine.Report
import RuleNet.Memory.Dump
import RuleNet.Memory.Load
import RuleNet.Network.Builder
import RuleNet.Network.Traversal
import RuleNet.Rule.Document
import RuleNet.Settings.Reader
import RuleNet.Proofs.Network.Expression
import RuleNet.Proofs.Network.WellFormed
import RuleNet.Proofs.Network.Growth
import RuleNet.Proofs.Network.Unfolding
import RuleNet.Proofs.Network.Representation
import RuleNet.Proofs.Engine.Propagation
import RuleNet.Proofs.Engine.Reference
import RuleNet.Proofs.Engine.Capping
import RuleNet.Proofs.Engine.Compilation
import RuleNet.Proofs.Engine.Sharing
import RuleNet.Proofs.Engine.Truth
import RuleNet.Proofs.Engine.Conservation
import RuleNet.Proofs.Memory.Allocation
import RuleNet.Proofs.Markup.Tags
import RuleNet.Proofs.Memory.Loading
import RuleNet.Proofs.Markup.Reading
import RuleNet.Proofs.Markup.RoundTrip
import RuleNet.Proofs.Markup.PlainNames
import RuleNet.Proofs.Markup.Reprinting
import RuleNet.Proofs.Json.RoundTrip
import RuleNet.Proofs.Memory.Reloading
import RuleNet.Proofs.Network.Batches
import RuleNet.Proofs.Engine.Provenance
import RuleNet.Proofs.Network.Settings
import RuleNet.Proofs.Network.Repetition
import RuleNet.Proofs.Network.Coverage
import RuleNet.Proofs.Rule.Satisfaction
import RuleNet.Proofs.Engine.Monotonicity
import RuleNet.Proofs.Engine.FactOrder
import RuleNet.Proofs.Rule.BoundsKey
import RuleNet.Proofs.Rule.Shape
import RuleNet.Proofs.Rule.Meaning
import RuleNet.Proofs.Network.Acceptance
import RuleNet.Proofs.Network.Lookup
import RuleNet.Proofs.Rule.IntegerBounds
import RuleNet.Proofs.Markup.Tree
import RuleNet.Proofs.Rule.Agreement
import RuleNet.Proofs.Network.Preorder
import RuleNet.Proofs.Rule.Satisfiability
import RuleNet.Proofs.Engine.Candidates
import RuleNet.Proofs.Rule.NormalForm
import RuleNet.Proofs.Rule.Composition
