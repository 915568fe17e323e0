import FormWatch.Main
import FormWatch.Rehearsal
import FormWatch.Startup
import FormWatch.Proofs.Supervisor.Table
import FormWatch.Proofs.Supervisor.Transition
import FormWatch.Proofs.Supervisor.Run
import FormWatch.Proofs.Supervisor.Delivery
import FormWatch.Proofs.Supervisor.Kill
import FormWatch.Proofs.Supervisor.Unfinished
import FormWatch.Proofs.Supervisor.Units
import FormWatch.Proofs.Supervisor.Snapshot
import FormWatch.Proofs.Server.Session
import FormWatch.Proofs.Supervisor.Freshness
import FormWatch.Proofs.Server.Publication
import FormWatch.Proofs.Supervisor.Obsolescence
import FormWatch.Proofs.Supervisor.Locality
import FormWatch.Proofs.Supervisor.Correspondence
import FormWatch.Proofs.Supervisor.Containment
import FormWatch.Proofs.Supervisor.Shutdown
import FormWatch.Proofs.Supervisor.FailedLaunch
import FormWatch.Proofs.Supervisor.Refusals
import FormWatch.Proofs.Supervisor.Completion
import FormWatch.Proofs.Supervisor.Numbering
import FormWatch.Proofs.Supervisor.Thinning
import FormWatch.Proofs.Supervisor.Isolation
import FormWatch.Proofs.Text.Utf8
import FormWatch.Proofs.Text.Newlines
import FormWatch.Proofs.Text.Lines
import FormWatch.Proofs.Text.Positions
import FormWatch.Proofs.Text.LineBounds
import FormWatch.Proofs.Text.Decoding
import FormWatch.Proofs.Check.Placement
import FormWatch.Proofs.Json.Numbers
import FormWatch.Proofs.Json.Strings
import FormWatch.Proofs.Json.Grammar
import FormWatch.Proofs.Json.Oversized
import FormWatch.Proofs.Json.RoundTrip
import FormWatch.Proofs.Server.Closing
import FormWatch.Proofs.Report.Framing
import FormWatch.Proofs.Report.Offsets
import FormWatch.Proofs.Report.Protocol
import FormWatch.Proofs.Command.Spelling
import FormWatch.Proofs.Batch.CommandLine
import FormWatch.Proofs.Batch.Reporting
import FormWatch.Proofs.Lexeme.Order
import FormWatch.Proofs.Lexeme.Cut
import FormWatch.Proofs.Lexeme.Partition
import FormWatch.Proofs.Lexeme.Tokens
import FormWatch.Proofs.Lexeme.Joining
import FormWatch.Proofs.Lexeme.Pattern
import FormWatch.Proofs.Lexeme.Rules
import FormWatch.Proofs.Lexeme.Locality
import FormWatch.Proofs.Form.Geometry
import FormWatch.Proofs.Form.Listing
import FormWatch.Proofs.Form.OpenForms
import FormWatch.Proofs.Form.Accounting
import FormWatch.Proofs.Form.Layout
import FormWatch.Proofs.Form.Flattening
import FormWatch.Proofs.Span.Enclosing
import FormWatch.Proofs.Span.Resolving
import FormWatch.Proofs.Span.Extent
import FormWatch.Proofs.Diagnostic.Lines
import FormWatch.Proofs.Form.Locality
import FormWatch.Proofs.Form.Loss
import FormWatch.Proofs.Check.Pointing
import FormWatch.Proofs.Check.Visibility
import FormWatch.Proofs.Check.Tokens
import FormWatch.Proofs.Check.Variables
import FormWatch.Proofs.Check.Definitions
import FormWatch.Proofs.Configuration.Settings
import FormWatch.Proofs.EventLoop.Futures
import FormWatch.Proofs.EventLoop.Handle
