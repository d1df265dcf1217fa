import StubServer.Behavior.Basic
import StubServer.Behavior.Compile
import StubServer.Behavior.Edit
import StubServer.BehaviorFile.Line
import StubServer.BehaviorFile.Path
import StubServer.BehaviorFile.Section
import StubServer.BehaviorFile.Written
import StubServer.CommandLine.Arguments
import StubServer.CommandLine.Help
import StubServer.CommandLine.Program
import StubServer.CommandLine.Report
import StubServer.Cookie.Basic
import StubServer.Cookie.Cursor
import StubServer.Disk
import StubServer.Dispatch.Budget
import StubServer.Dispatch.Registry
import StubServer.Duration
import StubServer.Http.Header
import StubServer.Http.Method
import StubServer.Http.Reply
import StubServer.Http.Target
import StubServer.Main
import StubServer.Metrics
import StubServer.Net.Address
import StubServer.Proofs.Behavior.Compiled
import StubServer.Proofs.Behavior.Declared
import StubServer.Proofs.Behavior.Merging
import StubServer.Proofs.Behavior.Overlay
import StubServer.Proofs.BehaviorFile.Grouping
import StubServer.Proofs.BehaviorFile.Lines
import StubServer.Proofs.Dispatch.Account
import StubServer.Proofs.Dispatch.Epoch
import StubServer.Proofs.Dispatch.Succession
import StubServer.Proofs.Dispatch.Unanswered
import StubServer.Proofs.Http.Fields
import StubServer.Proofs.Service.Request
import StubServer.Proofs.Session.Reload
import StubServer.Service.Admin
import StubServer.Service.Basic
import StubServer.Service.Document
import StubServer.Service.Request
import StubServer.Session
import StubServer.Settings.Basic
import StubServer.Settings.Load
import StubServer.Shutdown
import StubServer.System
import StubServer.Text.Blank
import StubServer.Text.Cut
import StubServer.Text.Numeral
import StubServer.Text.Quoted
import StubServer.Text.Unprintable
import StubServer.Text.Utf8
import StubServer.Time.Date
import StubServer.Time.Instant
import StubServer.Time.Timestamp
import StubServer.Toml.Document
import StubServer.Toml.Lexeme
import StubServer.Toml.Value
import StubServer.Proofs.BehaviorFile.Reading
import StubServer.Proofs.BehaviorFile.Rereading
import StubServer.Proofs.Behavior.Concatenation
import StubServer.Proofs.Behavior.Location
import StubServer.Proofs.Http.Cookies
import StubServer.Proofs.Duration.Literal
import StubServer.Proofs.Duration.Value
import StubServer.Proofs.Duration.Range
import StubServer.Proofs.BehaviorFile.Contents
import StubServer.Proofs.Behavior.WellFormed
import StubServer.Proofs.Duration.Arithmetic
import StubServer.Proofs.Duration.Grammar
import StubServer.Proofs.Behavior.CookieGroups
import StubServer.Proofs.Behavior.Order
import StubServer.Proofs.Http.EventStream
import StubServer.Proofs.Http.Rendering
import StubServer.Proofs.Service.Target
import StubServer.Proofs.Text.Utf8
import StubServer.Proofs.Cookie.Reading
import StubServer.Proofs.BehaviorFile.Octets
import StubServer.Proofs.BehaviorFile.Spacing
import StubServer.Proofs.BehaviorFile.Formatting
import StubServer.Proofs.Behavior.Formatting
import StubServer.Proofs.Time.Advance
import StubServer.Proofs.Behavior.Expiry
import StubServer.Proofs.Settings.Overrides
import StubServer.Proofs.Shutdown.Delivery
import StubServer.Proofs.Dispatch.Countdown
import StubServer.Proofs.Cookie.Ledger
