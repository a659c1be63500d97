import RoleAudit.Anchor
import RoleAudit.Audit.Printer
import RoleAudit.Audit.Report
import RoleAudit.Classification.Classifier
import RoleAudit.Classification.Decision
import RoleAudit.Classification.Evidence
import RoleAudit.Classification.Result
import RoleAudit.Command.Arguments
import RoleAudit.Command.Run
import RoleAudit.Command.Switch
import RoleAudit.Constraint.Basic
import RoleAudit.Constraint.Domain
import RoleAudit.Constraint.Layer
import RoleAudit.Constraint.PackageCycle
import RoleAudit.Constraint.Port
import RoleAudit.Constraint.Standard
import RoleAudit.Criterion.Basic
import RoleAudit.Criterion.Data
import RoleAudit.Criterion.Domain
import RoleAudit.Criterion.Port
import RoleAudit.Criterion.Shape
import RoleAudit.Dictionary
import RoleAudit.Digraph.Basic
import RoleAudit.Digraph.Component
import RoleAudit.Digraph.Condensation
import RoleAudit.Digraph.Cycle
import RoleAudit.Distinct
import RoleAudit.Element.AnnotationRef
import RoleAudit.Element.Codec
import RoleAudit.Element.Edge
import RoleAudit.Element.Id
import RoleAudit.Element.Node
import RoleAudit.Element.TypeRef
import RoleAudit.Error
import RoleAudit.Files
import RoleAudit.Graph.Basic
import RoleAudit.Graph.Multimap
import RoleAudit.Graph.Query
import RoleAudit.Json.Basic
import RoleAudit.Json.Decoder
import RoleAudit.Json.Parser
import RoleAudit.Json.Printer
import RoleAudit.Main
import RoleAudit.Model.Basic
import RoleAudit.Model.Build
import RoleAudit.Model.Codec
import RoleAudit.PortFacts
import RoleAudit.Progress
import RoleAudit.Projection
import RoleAudit.Regex.Basic
import RoleAudit.Regex.Standard
import RoleAudit.Proofs.Digraph.Reach
import RoleAudit.Proofs.Digraph.Walk
import RoleAudit.Role.Basic
import RoleAudit.Settings.Basic
import RoleAudit.Settings.Codec
import RoleAudit.Settings.Glob
import RoleAudit.Settings.Text
import RoleAudit.Severity
import RoleAudit.Text.Affix
import RoleAudit.Text.Blank
import RoleAudit.Text.CodeRanges
import RoleAudit.Text.Name
import RoleAudit.Text.Style
import RoleAudit.Text.Table
import RoleAudit.Text.Width
import RoleAudit.Text.Width.Emoji
import RoleAudit.Text.Width.Ligature
import RoleAudit.Text.Width.Ranges
import RoleAudit.Toml.Basic
import RoleAudit.Toml.Document
import RoleAudit.Toml.Parser
import RoleAudit.Toml.Quoted
import RoleAudit.Toml.Scalar
import RoleAudit.Proofs.Digraph.Visit
import RoleAudit.Proofs.Digraph.Components
import RoleAudit.Proofs.Digraph.CycleComponents
import RoleAudit.Proofs.Digraph.CycleReport
import RoleAudit.Proofs.Digraph.CycleLimit
import RoleAudit.Proofs.Graph.Scan
import RoleAudit.Proofs.Graph.Superclasses
import RoleAudit.Proofs.Digraph.CycleSearch
import RoleAudit.Proofs.Graph.Insertions
import RoleAudit.Proofs.Model.Build
import RoleAudit.Proofs.Constraint.FieldReach
import RoleAudit.Proofs.Classification.Results
import RoleAudit.Proofs.Constraint.AggregateCycle
import RoleAudit.Proofs.Constraint.AggregateReferences
import RoleAudit.Proofs.Constraint.CycleViolation
import RoleAudit.Proofs.Graph.Reorder
import RoleAudit.Proofs.Model.Reorder
import RoleAudit.Proofs.PortFacts
import RoleAudit.Proofs.Classification.Rewording
import RoleAudit.Proofs.Criterion.Reorder
import RoleAudit.Proofs.Classification.Reorder
import RoleAudit.Proofs.Classification.OrderFree
import RoleAudit.Proofs.Constraint.Reorder
import RoleAudit.Proofs.Projection
import RoleAudit.Proofs.Audit.Reorder
import RoleAudit.Proofs.Classification.Arbitration
import RoleAudit.Proofs.Constraint.PortFacts
import RoleAudit.Proofs.Classification.Conflicts
import RoleAudit.Proofs.Graph.Part
import RoleAudit.Proofs.Classification.Compositional
import RoleAudit.Proofs.Model.Declarations
import RoleAudit.Proofs.Model.StatedEdges
import RoleAudit.Proofs.Model.SignatureUses
import RoleAudit.Proofs.Audit.Relaxed
import RoleAudit.Proofs.Model.PackageProjection
import RoleAudit.Proofs.Constraint.PackageCycle
import RoleAudit.Proofs.Classification.Consistent
import RoleAudit.Proofs.Classification.Decided
import RoleAudit.Proofs.Classification.KeptMatches
import RoleAudit.Proofs.Classification.Markers
import RoleAudit.Proofs.Classification.AddedCriterion
import RoleAudit.Proofs.Criterion.TestDouble
import RoleAudit.Proofs.Model.Queries
import RoleAudit.Proofs.Model.Answers
import RoleAudit.Proofs.Classification.TestDouble
import RoleAudit.Proofs.CoherentFacts
import RoleAudit.Proofs.CoreClasses
import RoleAudit.Proofs.Constraint.PortCoverage
import RoleAudit.Proofs.Constraint.DomainPurity
import RoleAudit.Proofs.Constraint.ServedInside
import RoleAudit.Proofs.Classification.Signal
import RoleAudit.Proofs.Error
import RoleAudit.Proofs.Regex
import RoleAudit.Proofs.Settings.Glob
import RoleAudit.Proofs.Settings.ExclusionMatcher
import RoleAudit.Proofs.Settings.GlobSegments
import RoleAudit.Proofs.Json.ReadBack
import RoleAudit.Proofs.Element.ReadBack
import RoleAudit.Proofs.Json.RoundTrip
import RoleAudit.Proofs.Classification.References
import RoleAudit.Proofs.Audit.References
import RoleAudit.Proofs.Digraph.TopologicalOrder
import RoleAudit.Proofs.Digraph.Representative
import RoleAudit.Proofs.Digraph.Condensation
import RoleAudit.Proofs.Digraph.LongestChain
import RoleAudit.Proofs.Classification.LocalSettings
import RoleAudit.Proofs.Criterion.Dominant
import RoleAudit.Proofs.Digraph.Mentions
import RoleAudit.Proofs.Digraph.ComponentOrder
import RoleAudit.Proofs.Element.Naming
import RoleAudit.Proofs.Graph.AppendOnly
