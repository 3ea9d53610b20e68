import EventFlow.Api.Failure
import EventFlow.Api.Records
import EventFlow.Api.Route
import EventFlow.Api.Service
import EventFlow.Api.Serving
import EventFlow.CommandLine.Arguments
import EventFlow.CommandLine.Failure
import EventFlow.CommandLine.Help
import EventFlow.CommandLine.Invocation
import EventFlow.CommandLine.Report
import EventFlow.CommandLine.Run
import EventFlow.Condition.Compare
import EventFlow.Condition.Evaluate
import EventFlow.Condition.Expression
import EventFlow.Condition.Token
import EventFlow.Config.Basic
import EventFlow.Data.Assoc
import EventFlow.Data.Uuid
import EventFlow.Engine.Agent
import EventFlow.Engine.Attempt
import EventFlow.Engine.Failure
import EventFlow.Engine.Listener
import EventFlow.Engine.Machine
import EventFlow.Engine.Plan
import EventFlow.Engine.Program
import EventFlow.Engine.Remaining
import EventFlow.Engine.Run
import EventFlow.Engine.Settings
import EventFlow.Engine.Trigger
import EventFlow.Engine.Validation
import EventFlow.Engine.Waiting
import EventFlow.Event.Basic
import EventFlow.Event.Bus
import EventFlow.Files.Path
import EventFlow.Files.Tree
import EventFlow.Handler.Basic
import EventFlow.Handler.Builtin
import EventFlow.Handler.File
import EventFlow.Handler.Outbox
import EventFlow.Handler.Request
import EventFlow.Handler.Scripted
import EventFlow.Handler.World
import EventFlow.Http.MediaType
import EventFlow.Http.Message
import EventFlow.Http.Target
import EventFlow.Json.Basic
import EventFlow.Json.Document
import EventFlow.Json.Printer
import EventFlow.Json.Reader
import EventFlow.Json.Record
import EventFlow.Json.Shape
import EventFlow.Main
import EventFlow.Number.Binary64
import EventFlow.Number.Decimal
import EventFlow.Number.Shortest
import EventFlow.Proofs.Api.Failure
import EventFlow.Proofs.Condition.Descent
import EventFlow.Proofs.Condition.Equality
import EventFlow.Proofs.Condition.Extent
import EventFlow.Proofs.Condition.Gates
import EventFlow.Proofs.Condition.Grammar
import EventFlow.Proofs.Condition.Integers
import EventFlow.Proofs.Condition.Leaves
import EventFlow.Proofs.Condition.Literals
import EventFlow.Proofs.Condition.Mentioned
import EventFlow.Proofs.Condition.Parsing
import EventFlow.Proofs.Condition.Positions
import EventFlow.Proofs.Condition.Scanning
import EventFlow.Proofs.Condition.Spelling
import EventFlow.Proofs.Data.Assoc
import EventFlow.Proofs.Data.Uuid
import EventFlow.Proofs.Engine.Account
import EventFlow.Proofs.Engine.Adequacy
import EventFlow.Proofs.Engine.Agreement
import EventFlow.Proofs.Engine.Answering
import EventFlow.Proofs.Engine.AppendOnly
import EventFlow.Proofs.Engine.Attempt
import EventFlow.Proofs.Engine.Backoff
import EventFlow.Proofs.Engine.Bookkeeping
import EventFlow.Proofs.Engine.Calls
import EventFlow.Proofs.Engine.Course
import EventFlow.Proofs.Engine.Declared
import EventFlow.Proofs.Engine.Delivery
import EventFlow.Proofs.Engine.Dispatching
import EventFlow.Proofs.Engine.Edits
import EventFlow.Proofs.Engine.Footprint
import EventFlow.Proofs.Engine.Foreground
import EventFlow.Proofs.Engine.Foresight
import EventFlow.Proofs.Engine.History
import EventFlow.Proofs.Engine.Interleaving
import EventFlow.Proofs.Engine.Isolation
import EventFlow.Proofs.Engine.Kindred
import EventFlow.Proofs.Engine.Listened
import EventFlow.Proofs.Engine.Listening
import EventFlow.Proofs.Engine.Problems
import EventFlow.Proofs.Engine.Prompt
import EventFlow.Proofs.Engine.Punctual
import EventFlow.Proofs.Engine.Returning
import EventFlow.Proofs.Engine.Schedule
import EventFlow.Proofs.Engine.Sequence
import EventFlow.Proofs.Engine.Snapshot
import EventFlow.Proofs.Engine.Solo
import EventFlow.Proofs.Engine.Sound
import EventFlow.Proofs.Engine.Timeline
import EventFlow.Proofs.Engine.Timeouts
import EventFlow.Proofs.Engine.Trace
import EventFlow.Proofs.Engine.Underway
import EventFlow.Proofs.Engine.Undisturbed
import EventFlow.Proofs.Engine.Validation
import EventFlow.Proofs.Engine.Validity
import EventFlow.Proofs.Event.Bus
import EventFlow.Proofs.Files.Resolution
import EventFlow.Proofs.Files.Writing
import EventFlow.Proofs.Handler.File
import EventFlow.Proofs.Handler.Outbox
import EventFlow.Proofs.Json.Canonical
import EventFlow.Proofs.Json.Meaning
import EventFlow.Proofs.Json.Reading
import EventFlow.Proofs.Json.Recovery
import EventFlow.Proofs.Json.RoundTrip
import EventFlow.Proofs.Json.Scanning
import EventFlow.Proofs.Number.Decimal
import EventFlow.Proofs.Number.Range
import EventFlow.Proofs.Number.Shortest
import EventFlow.Proofs.Number.Whole
import EventFlow.Proofs.Record.Depth
import EventFlow.Proofs.Record.Meaning
import EventFlow.Proofs.Record.Progress
import EventFlow.Proofs.Record.RoundTrip
import EventFlow.Proofs.Record.Sound
import EventFlow.Proofs.Store.Catalogue
import EventFlow.Proofs.Store.Csv
import EventFlow.Proofs.Store.Edits
import EventFlow.Proofs.Store.Export
import EventFlow.Proofs.Store.Ledger
import EventFlow.Proofs.Store.Listing
import EventFlow.Proofs.Store.Mutation
import EventFlow.Proofs.Store.Query
import EventFlow.Proofs.Store.Reopen
import EventFlow.Proofs.Store.Requests
import EventFlow.Proofs.Store.Reseeding
import EventFlow.Proofs.Store.Seeding
import EventFlow.Proofs.Store.Sound
import EventFlow.Proofs.Store.Tables
import EventFlow.Proofs.Store.Telling
import EventFlow.Proofs.Store.Triggered
import EventFlow.Proofs.Template.Deep
import EventFlow.Proofs.Template.Lookup
import EventFlow.Proofs.Template.Occurrences
import EventFlow.Proofs.Text.ByteOrder
import EventFlow.Proofs.Text.Digits
import EventFlow.Proofs.Time.Calendar
import EventFlow.Proofs.Time.Newest
import EventFlow.Proofs.Time.Rfc3339
import EventFlow.Record.Action
import EventFlow.Record.Condition
import EventFlow.Record.Execution
import EventFlow.Record.Step
import EventFlow.Record.Workflow
import EventFlow.Store.Basic
import EventFlow.Store.Bundle
import EventFlow.Store.Collections
import EventFlow.Store.Csv
import EventFlow.Store.Definitions
import EventFlow.Store.Disk
import EventFlow.Store.Ledger
import EventFlow.Store.Starter
import EventFlow.Store.Workflows
import EventFlow.Supply
import EventFlow.Template.Interpolate
import EventFlow.Template.Path
import EventFlow.Text.Blank
import EventFlow.Text.Columns
import EventFlow.Text.Digits
import EventFlow.Text.Lowercase
import EventFlow.Text.Parts
import EventFlow.Text.Percent
import EventFlow.Text.Quoted
import EventFlow.Text.Utf8
import EventFlow.Time.Instant
import EventFlow.Time.Rfc3339
import EventFlow.Time.Sleep
import EventFlow.Toml.Reader
import EventFlow.Toml.Scalar
import EventFlow.Toml.Table
import EventFlow.Toml.Text
import EventFlow.Url.Basic
import EventFlow.Url.Host
import EventFlow.Url.Punycode
