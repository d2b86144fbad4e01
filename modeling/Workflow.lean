import Workflow.Text.Blank
import Workflow.Text.Parts
import Workflow.Text.Invisible
import Workflow.Text.Quoted
import Workflow.Table
import Workflow.Binary64
import Workflow.Binary64.Reader
import Workflow.Value
import Workflow.Value.Reader
import Workflow.Value.Writer
import Workflow.Value.Pretty
import Workflow.Context
import Workflow.Expression.Reference
import Workflow.Expression.Condition
import Workflow.Toml.Document
import Workflow.Toml.Moment
import Workflow.Toml.Scalar
import Workflow.Toml.Token
import Workflow.Toml.Tables
import Workflow.Toml.Reader
import Workflow.Toml.Writer
import Workflow.Toml.Fields
import Workflow.ConfigError
import Workflow.Step
import Workflow.Definition
import Workflow.Definition.Draft
import Workflow.Definition.Document
import Workflow.Definition.Registry
import Workflow.Settings
import Workflow.StepError
import Workflow.Decision
import Workflow.Action
import Workflow.Action.Script
import Workflow.Action.Registry
import Workflow.Review
import Workflow.Review.Desk
import Workflow.Event
import Workflow.Event.Channel
import Workflow.Warning
import Workflow.Execution.Process
import Workflow.Execution.Environment
import Workflow.Execution.Activity
import Workflow.Execution.Action
import Workflow.Execution.Group
import Workflow.Execution.Human
import Workflow.Execution.Steps
import Workflow.Execution.Custom
import Workflow.Run.Report
import Workflow.Run
import Workflow.Run.Identifier
import Workflow.Disk
import Workflow.Library
import Workflow.Library.Files
import Workflow.Library.Stubs
import Workflow.Engine
import Workflow.Host
import Workflow.Host.Runs
import Workflow.Host.Steps
import Workflow.Host.Reviews
import Workflow.Host.Loading
import Workflow.CommandLine.Arguments
import Workflow.CommandLine.Failure
import Workflow.CommandLine.Dialogue
import Workflow.CommandLine
import Workflow.Main
import Workflow.Proofs.Run.Order
import Workflow.Proofs.Host.Tasks
import Workflow.Proofs.Host.Execution
import Workflow.Proofs.Review.Desk
import Workflow.Proofs.Review.Seats
import Workflow.Proofs.Execution.Environment
import Workflow.Proofs.Execution.Stages
import Workflow.Proofs.Review.Hall
import Workflow.Proofs.Review.Removal
import Workflow.Proofs.Review.View
import Workflow.Proofs.Review.Delivery
import Workflow.Proofs.Review.Boxes
import Workflow.Proofs.Review.Acceptance
import Workflow.Proofs.Review.Announcing
import Workflow.Proofs.Review.Holders
import Workflow.Proofs.Definition.Accepted
import Workflow.Proofs.Trimming
import Workflow.Proofs.Parts
import Workflow.Proofs.Definition.Checked
import Workflow.Proofs.Definition.Checks
import Workflow.Proofs.Definition.Roundtrip
import Workflow.Proofs.Definition.Addresses
import Workflow.Proofs.Definition.Validity
import Workflow.Proofs.Definition.Groups
import Workflow.Proofs.Execution.Requests
import Workflow.Proofs.Run.Motion
import Workflow.Proofs.Run.Course
import Workflow.Proofs.Review.Attendance
import Workflow.Proofs.Run.Separation
import Workflow.Proofs.Run.Scene
import Workflow.Proofs.Table
import Workflow.Proofs.Execution.Rules
import Workflow.Proofs.Execution.Obedience
import Workflow.Proofs.Execution.Handouts
import Workflow.Proofs.Execution.Calls
import Workflow.Proofs.Execution.Writes
import Workflow.Proofs.Execution.Endings
import Workflow.Proofs.Execution.Histories
import Workflow.Proofs.Execution.Batches
import Workflow.Proofs.Execution.Roster
import Workflow.Proofs.Execution.Schedule
import Workflow.Proofs.Execution.Standing
import Workflow.Proofs.Execution.Timetable
import Workflow.Proofs.Execution.Parallel
import Workflow.Proofs.Execution.Defects
import Workflow.Proofs.Library
import Workflow.Proofs.Host.Incidents
import Workflow.Proofs.Host.Loaded
import Workflow.Proofs.Host.Admission
import Workflow.Proofs.Library.Stubs
import Workflow.Proofs.Disk
import Workflow.Proofs.Library.Directories
import Workflow.Proofs.Library.Scan
import Workflow.Proofs.Run.Rules
import Workflow.Proofs.Run.Chronicle
import Workflow.Proofs.Run.Scope
import Workflow.Proofs.Review.Mirror
import Workflow.Proofs.Execution.Asking
import Workflow.Proofs.Execution.Twins
import Workflow.Proofs.Execution.Likeness
import Workflow.Proofs.Run.Twins
import Workflow.Proofs.Run.Acts
import Workflow.Proofs.Host.Places
import Workflow.Proofs.Host.Keeping
import Workflow.Proofs.Host.Desks
import Workflow.Proofs.Host.Shadows
import Workflow.Proofs.Host.Isolation
import Workflow.Proofs.Host.Leaks
import Workflow.Proofs.Expression.Grammar
import Workflow.Proofs.Expression.Bytes
import Workflow.Proofs.Expression.Verdicts
import Workflow.Proofs.Value.Equality
import Workflow.Proofs.Expression.Comparison
import Workflow.Proofs.Binary64.Integers
import Workflow.Proofs.Numerals
import Workflow.Proofs.Expression.Integers
import Workflow.Proofs.Expression.Paths
import Workflow.Proofs.Expression.Mentions
import Workflow.Proofs.Expression.Outputs
import Workflow.Proofs.Expression.Substitution
import Workflow.Proofs.Expression.Literals
import Workflow.Proofs.Execution.Traces
import Workflow.Proofs.Execution.Limits
import Workflow.Proofs.Event.Channel
import Workflow.Proofs.Execution.Dealings
import Workflow.Proofs.Run.Announcements
import Workflow.Proofs.Run.Enclosure
import Workflow.Proofs.Execution.Interference
import Workflow.Proofs.Host.Dealings
import Workflow.Proofs.Host.Announcements
import Workflow.Proofs.CommandLine.Approver
import Workflow.Proofs.CommandLine.Dialogue
