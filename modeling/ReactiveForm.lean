import ReactiveForm.Checker.Options
import ReactiveForm.Checker.Person
import ReactiveForm.Checker.Run
import ReactiveForm.Config.Basic
import ReactiveForm.Config.EnvFile
import ReactiveForm.Config.Environment
import ReactiveForm.Double.Basic
import ReactiveForm.Double.Shortest
import ReactiveForm.Error
import ReactiveForm.Form.Basic
import ReactiveForm.Form.Control
import ReactiveForm.Form.Document
import ReactiveForm.Form.Edit
import ReactiveForm.Form.Growth
import ReactiveForm.Form.Refresh
import ReactiveForm.Json.Basic
import ReactiveForm.Json.Number
import ReactiveForm.Json.Parser
import ReactiveForm.Json.Printer
import ReactiveForm.Main
import ReactiveForm.Model.Basic
import ReactiveForm.Model.Registry
import ReactiveForm.Path
import ReactiveForm.Property.Basic
import ReactiveForm.Property.Policy
import ReactiveForm.Recompute.Burst
import ReactiveForm.Recompute.Engine
import ReactiveForm.Recompute.Pipeline
import ReactiveForm.Recompute.Scheduler
import ReactiveForm.Rule.Basic
import ReactiveForm.Rule.Check
import ReactiveForm.Rule.Inquiry
import ReactiveForm.Rule.Predicate
import ReactiveForm.Session
import ReactiveForm.Stream
import ReactiveForm.Test.Basic
import ReactiveForm.Test.Document
import ReactiveForm.Test.Run
import ReactiveForm.Text.Alphanumeric
import ReactiveForm.Text.Basic
import ReactiveForm.Text.Quoted
import ReactiveForm.Text.Pieces
import ReactiveForm.Text.Terminal
import ReactiveForm.Text.Uppercase
import ReactiveForm.Proofs.Recompute.Burst
import ReactiveForm.Proofs.Stream.Delivery
import ReactiveForm.Proofs.Form.Tree
import ReactiveForm.Proofs.Form.Value
import ReactiveForm.Proofs.Form.Refresh
import ReactiveForm.Proofs.Form.Edit
import ReactiveForm.Proofs.Form.Growth
import ReactiveForm.Proofs.Form.Outcomes
import ReactiveForm.Proofs.Keyed
import ReactiveForm.Proofs.Recompute.Fit
import ReactiveForm.Proofs.Recompute.Outline
import ReactiveForm.Proofs.Recompute.Step
import ReactiveForm.Proofs.Recompute.InquiryStep
import ReactiveForm.Proofs.Recompute.Sound
import ReactiveForm.Proofs.Recompute.Events
import ReactiveForm.Proofs.Session.Outcomes
import ReactiveForm.Proofs.Session.Runs
import ReactiveForm.Proofs.Recompute.Coverage
import ReactiveForm.Proofs.Recompute.Passes
import ReactiveForm.Proofs.Session.SyncValidity
import ReactiveForm.Proofs.Recompute.Answers
import ReactiveForm.Proofs.Recompute.Requests
import ReactiveForm.Proofs.Session.AsyncValidity
import ReactiveForm.Proofs.Json.Equality
import ReactiveForm.Proofs.Json.RoundTrip
import ReactiveForm.Proofs.Recompute.Work
import ReactiveForm.Proofs.Recompute.Heard
import ReactiveForm.Proofs.Recompute.Drops
import ReactiveForm.Proofs.Session.Editability
import ReactiveForm.Proofs.Form.Structure
import ReactiveForm.Proofs.Recompute.Rebuild
import ReactiveForm.Proofs.Session.Structure
import ReactiveForm.Proofs.Session.Resubscription
import ReactiveForm.Proofs.Form.Items
import ReactiveForm.Proofs.Test.Distinct
import ReactiveForm.Proofs.Test.Views
import ReactiveForm.Proofs.Test.Document
import ReactiveForm.Proofs.Test.Dependencies
import ReactiveForm.Proofs.Recompute.Subscribed
import ReactiveForm.Proofs.Recompute.Tally
import ReactiveForm.Proofs.Session.Edits
import ReactiveForm.Proofs.Session.ForcedInquiries
import ReactiveForm.Proofs.Session.Turns
import ReactiveForm.Proofs.Session.Current
import ReactiveForm.Proofs.Session.LastReadings
import ReactiveForm.Proofs.Rule.Agreement
import ReactiveForm.Proofs.Form.Twin
import ReactiveForm.Proofs.Session.DistinctDependencies
import ReactiveForm.Proofs.Session.Triggers
import ReactiveForm.Proofs.Session.Attachment
import ReactiveForm.Proofs.Recompute.UpToDate
import ReactiveForm.Proofs.Session.Effects
import ReactiveForm.Proofs.Session.Subscriptions
import ReactiveForm.Proofs.Recompute.Evaluations
import ReactiveForm.Proofs.Session.Evaluations
import ReactiveForm.Proofs.Session.Pending
import ReactiveForm.Proofs.Recompute.Weights
import ReactiveForm.Proofs.Recompute.Backlog
import ReactiveForm.Proofs.Recompute.Settling
import ReactiveForm.Proofs.Session.Settling
import ReactiveForm.Proofs.Form.ControlTree
import ReactiveForm.Proofs.Form.Places
import ReactiveForm.Proofs.Form.Grafts
import ReactiveForm.Proofs.Form.Preorder
import ReactiveForm.Proofs.Session.ControlTree
import ReactiveForm.Proofs.Form.Projection
import ReactiveForm.Proofs.Form.Replacement
import ReactiveForm.Proofs.Form.Matching
import ReactiveForm.Proofs.Session.Document
import ReactiveForm.Proofs.Form.Faults
import ReactiveForm.Proofs.Session.Faults
import ReactiveForm.Proofs.Session.Writers
import ReactiveForm.Proofs.Session.Errors
import ReactiveForm.Proofs.Recompute.Bookkeeping
import ReactiveForm.Proofs.Session.Bookkeeping
import ReactiveForm.Proofs.Path
import ReactiveForm.Proofs.Path.Composition
import ReactiveForm.Proofs.Model.Names
import ReactiveForm.Proofs.Form.Rooted
import ReactiveForm.Proofs.Form.Routes
import ReactiveForm.Proofs.Session.Paths
import ReactiveForm.Proofs.Form.Agreement
import ReactiveForm.Proofs.Session.Agreement
import ReactiveForm.Proofs.Session.Detachment
import ReactiveForm.Proofs.Form.Properties
import ReactiveForm.Proofs.Recompute.Due
import ReactiveForm.Proofs.Recompute.Foresight
import ReactiveForm.Proofs.Session.Policies
import ReactiveForm.Proofs.Session.Unison
import ReactiveForm.Proofs.Session.Capacity
import ReactiveForm.Proofs.Rule.Order
import ReactiveForm.Proofs.Rule.Modes
import ReactiveForm.Proofs.Rule.Flattening
import ReactiveForm.Proofs.Rule.Monotone
import ReactiveForm.Proofs.Session.Omitted
import ReactiveForm.Proofs.Session.Templates
import ReactiveForm.Proofs.Text.Words
import ReactiveForm.Proofs.Config.Bounds
import ReactiveForm.Proofs.Config.Isolation
import ReactiveForm.Proofs.Model.Uniqueness
import ReactiveForm.Proofs.Model.Lookup
import ReactiveForm.Proofs.Model.Registry
import ReactiveForm.Proofs.Rule.Progress
import ReactiveForm.Proofs.Rule.Concurrency
import ReactiveForm.Proofs.Recompute.Deadlines
import ReactiveForm.Proofs.Session.Batch
import ReactiveForm.Proofs.Checker.Person
import ReactiveForm.Proofs.Form.Document
import ReactiveForm.Proofs.Checker.Report
import ReactiveForm.Proofs.Form.Calls
import ReactiveForm.Proofs.Session.Refreshes
import ReactiveForm.Proofs.Stream.Contents
import ReactiveForm.Proofs.Recompute.Gaps
import ReactiveForm.Proofs.Recompute.Debounce
import ReactiveForm.Proofs.Recompute.Decisions
import ReactiveForm.Proofs.Recompute.Gathering
import ReactiveForm.Proofs.Recompute.Deliberation
import ReactiveForm.Proofs.Session.InquiryTriggers
import ReactiveForm.Proofs.Session.Decisions
import ReactiveForm.Proofs.Session.OncePerBurst
