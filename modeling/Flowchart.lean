import Flowchart.CommandLine
import Flowchart.Condition.Basic
import Flowchart.Condition.Group
import Flowchart.Decimal.Format
import Flowchart.Decimal.Shortest
import Flowchart.Diagram.Basic
import Flowchart.Diagram.Builder
import Flowchart.Diagram.Encode
import Flowchart.Diagram.Names
import Flowchart.Diagram.OfFlow
import Flowchart.Diagram.OfWorkflow
import Flowchart.Document.Adjustments
import Flowchart.Document.Basic
import Flowchart.Document.Draft
import Flowchart.Document.Numeral
import Flowchart.Document.Reading
import Flowchart.Document.Record
import Flowchart.Document.Relaxed
import Flowchart.Document.Render
import Flowchart.Document.Strict
import Flowchart.Document.Surrogate
import Flowchart.Drawing.Basic
import Flowchart.Drawing.OfText
import Flowchart.Drawing.Settings
import Flowchart.Error
import Flowchart.Flow.Basic
import Flowchart.Flow.Decode
import Flowchart.Flow.ElseFolding
import Flowchart.Flow.Encode
import Flowchart.Flow.Nested
import Flowchart.Flow.Reading
import Flowchart.Layout.Basic
import Flowchart.Layout.Crossing
import Flowchart.Layout.Layers
import Flowchart.Layout.Placement
import Flowchart.Layout.Ranking
import Flowchart.Layout.Scalar
import Flowchart.Layout.Sorting
import Flowchart.Main
import Flowchart.Proofs.Builder
import Flowchart.Proofs.Condition.Collected
import Flowchart.Proofs.Condition.Groups
import Flowchart.Proofs.Condition.Negation
import Flowchart.Proofs.DeclaredIds
import Flowchart.Proofs.Document.Ordered
import Flowchart.Proofs.Document.Records
import Flowchart.Proofs.Document.Sorting
import Flowchart.Proofs.Downward
import Flowchart.Proofs.Flow.Aligned
import Flowchart.Proofs.Flow.Appending
import Flowchart.Proofs.Flow.Census
import Flowchart.Proofs.Flow.Entrance
import Flowchart.Proofs.Flow.FirstNamed
import Flowchart.Proofs.Flow.FoldedForm
import Flowchart.Proofs.Flow.Metadata
import Flowchart.Proofs.Flow.Naming
import Flowchart.Proofs.Flow.NamingOrder
import Flowchart.Proofs.Flow.Nested
import Flowchart.Proofs.Flow.NestedPaths
import Flowchart.Proofs.Flow.Outline
import Flowchart.Proofs.Flow.Rejection
import Flowchart.Proofs.Flow.Sound
import Flowchart.Proofs.Flow.Wiring
import Flowchart.Proofs.Flow.Written
import Flowchart.Proofs.FreeNames
import Flowchart.Proofs.Layout.BrokenCycles
import Flowchart.Proofs.Layout.Checked
import Flowchart.Proofs.Layout.Counting
import Flowchart.Proofs.Layout.CrossingReduction
import Flowchart.Proofs.Layout.Crossings
import Flowchart.Proofs.Layout.Geometry
import Flowchart.Proofs.Layout.Levels
import Flowchart.Proofs.Layout.Medians
import Flowchart.Proofs.Layout.Placement
import Flowchart.Proofs.Layout.Ranking
import Flowchart.Proofs.Layout.Routes
import Flowchart.Proofs.Layout.Rows
import Flowchart.Proofs.Layout.Single
import Flowchart.Proofs.Layout.Sizes
import Flowchart.Proofs.Layout.SortedRows
import Flowchart.Proofs.LeastNames
import Flowchart.Proofs.Matching
import Flowchart.Proofs.Metadata
import Flowchart.Proofs.NameSearch
import Flowchart.Proofs.Naming
import Flowchart.Proofs.Outline
import Flowchart.Proofs.PlainChains
import Flowchart.Proofs.Settling
import Flowchart.Proofs.SubscriberOrder
import Flowchart.Proofs.Text.Parts
import Flowchart.Proofs.WellFormed
import Flowchart.Proofs.Workflow.Arrangement
import Flowchart.Proofs.Workflow.Availability
import Flowchart.Proofs.Workflow.Metadata
import Flowchart.Proofs.Workflow.Naming
import Flowchart.Proofs.Workflow.Outline
import Flowchart.Proofs.Workflow.Reading
import Flowchart.Proofs.Workflow.Relocation
import Flowchart.Proofs.Workflow.Renaming
import Flowchart.Proofs.Workflow.Reordering
import Flowchart.Proofs.Workflow.Run
import Flowchart.Proofs.Workflow.Schedule
import Flowchart.Proofs.Workflow.Sound
import Flowchart.Proofs.Workflow.Wiring
import Flowchart.Proofs.Workflow.Written
import Flowchart.Text.Blank
import Flowchart.Text.Letter
import Flowchart.Text.Quoted
import Flowchart.Workflow.Basic
import Flowchart.Workflow.Decode
import Flowchart.Workflow.Encode
