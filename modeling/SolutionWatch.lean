import SolutionWatch.Cancellation
import SolutionWatch.Cascade
import SolutionWatch.Catalog
import SolutionWatch.ChangeKind
import SolutionWatch.Config
import SolutionWatch.Content
import SolutionWatch.Counters
import SolutionWatch.Delivery
import SolutionWatch.Derivation
import SolutionWatch.Diff
import SolutionWatch.Event
import SolutionWatch.Failure
import SolutionWatch.Fixture
import SolutionWatch.Id
import SolutionWatch.Json.Number
import SolutionWatch.Json.Token
import SolutionWatch.Json.Value
import SolutionWatch.OptionSet
import SolutionWatch.Patch
import SolutionWatch.Path
import SolutionWatch.Project
import SolutionWatch.Proofs.Diff.Composition
import SolutionWatch.Proofs.Diff.Edits
import SolutionWatch.Proofs.Diff.Exactness
import SolutionWatch.Proofs.Diff.Expected
import SolutionWatch.Proofs.Diff.Mirror
import SolutionWatch.Proofs.Diff.Order
import SolutionWatch.Proofs.Diff.Replay
import SolutionWatch.Proofs.Diff.Update
import SolutionWatch.Proofs.Json.Garbling
import SolutionWatch.Proofs.Json.Grammar
import SolutionWatch.Proofs.Json.Reading
import SolutionWatch.Proofs.Json.Spelling
import SolutionWatch.Proofs.Observing.Actions
import SolutionWatch.Proofs.Observing.Course
import SolutionWatch.Proofs.Observing.History
import SolutionWatch.Proofs.Observing.Refusals
import SolutionWatch.Proofs.Pipeline.Acceptance
import SolutionWatch.Proofs.Pipeline.Batches
import SolutionWatch.Proofs.Pipeline.Bystanders
import SolutionWatch.Proofs.Pipeline.Commands
import SolutionWatch.Proofs.Pipeline.Exchanges
import SolutionWatch.Proofs.Pipeline.Handout
import SolutionWatch.Proofs.Pipeline.Ledger
import SolutionWatch.Proofs.Pipeline.Line
import SolutionWatch.Proofs.Pipeline.Processing
import SolutionWatch.Proofs.Pipeline.Progress
import SolutionWatch.Proofs.Pipeline.Requests
import SolutionWatch.Proofs.Pipeline.Setting
import SolutionWatch.Proofs.Pipeline.Transparency
import SolutionWatch.Proofs.Pipeline.Turns
import SolutionWatch.Proofs.Queue.Conservation
import SolutionWatch.Proofs.Queue.Effects
import SolutionWatch.Proofs.Queue.Punctuality
import SolutionWatch.Proofs.Queue.Schedule
import SolutionWatch.Proofs.Queue.Settling
import SolutionWatch.Proofs.Queue.Stopping
import SolutionWatch.Proofs.Queue.Turns
import SolutionWatch.Proofs.Search.Ascending
import SolutionWatch.Proofs.Search.BreadthFirst
import SolutionWatch.Proofs.Search.Cancelled
import SolutionWatch.Proofs.Search.Cascade
import SolutionWatch.Proofs.Search.Completeness
import SolutionWatch.Proofs.Search.Counting
import SolutionWatch.Proofs.Search.Direction
import SolutionWatch.Proofs.Search.Graph
import SolutionWatch.Proofs.Search.Interpretation
import SolutionWatch.Proofs.Search.Interruption
import SolutionWatch.Proofs.Search.Lifecycle
import SolutionWatch.Proofs.Search.Narrowing
import SolutionWatch.Proofs.Search.Occurrences
import SolutionWatch.Proofs.Search.Relationships
import SolutionWatch.Proofs.Search.Routing
import SolutionWatch.Proofs.Search.Targets
import SolutionWatch.Proofs.Snapshot.Derivation
import SolutionWatch.Proofs.Snapshot.Edits
import SolutionWatch.Proofs.Snapshot.Fingerprint
import SolutionWatch.Proofs.Snapshot.Frame
import SolutionWatch.Proofs.Snapshot.Generated
import SolutionWatch.Proofs.Snapshot.Lookup
import SolutionWatch.Proofs.Snapshot.Recency
import SolutionWatch.Proofs.Wire.Presentation
import SolutionWatch.Proofs.Wire.RoundTrip
import SolutionWatch.Proofs.Worker.Calls
import SolutionWatch.Proofs.Worker.Course
import SolutionWatch.Proofs.Worker.Isolation
import SolutionWatch.Proofs.Worker.Keeping
import SolutionWatch.Proofs.Worker.Run
import SolutionWatch.Proofs.Worker.Standing
import SolutionWatch.Proofs.Workspace.Agreement
import SolutionWatch.Proofs.Workspace.Answers
import SolutionWatch.Proofs.Workspace.Coverage
import SolutionWatch.Proofs.Workspace.Events
import SolutionWatch.Proofs.Workspace.Filing
import SolutionWatch.Proofs.Workspace.Opening
import SolutionWatch.Proofs.Workspace.Refusals
import SolutionWatch.Proofs.Workspace.Truthfulness
import SolutionWatch.Proofs.Workspace.Vanishing
import SolutionWatch.Reasons
import SolutionWatch.Registry
import SolutionWatch.Request
import SolutionWatch.Scenario.Action
import SolutionWatch.Scenario.Field
import SolutionWatch.Scenario.Part
import SolutionWatch.Scenario.Report
import SolutionWatch.Search.Engine
import SolutionWatch.Search.Log
import SolutionWatch.Search.Query
import SolutionWatch.Search.Scope
import SolutionWatch.Search.Stream
import SolutionWatch.Session.Action
import SolutionWatch.Session.Agenda
import SolutionWatch.Session.Asking
import SolutionWatch.Session.Clock
import SolutionWatch.Session.Errand
import SolutionWatch.Session.Holding
import SolutionWatch.Session.Keeper
import SolutionWatch.Session.Observing
import SolutionWatch.Session.Script
import SolutionWatch.Session.Setup
import SolutionWatch.Session.State
import SolutionWatch.Session.Turn
import SolutionWatch.Solution
import SolutionWatch.Symbol
import SolutionWatch.TextSpan
import SolutionWatch.Wire.Codec
import SolutionWatch.Wire.Record
import SolutionWatch.WorkItem
import SolutionWatch.WorkQueue
import SolutionWatch.Worker
import SolutionWatch.Workspace
