import NodeProbe.Channel
import NodeProbe.CommandLine
import NodeProbe.Component.Assembly
import NodeProbe.Component.Basic
import NodeProbe.Component.Counter
import NodeProbe.Component.Diagnostics
import NodeProbe.Component.Scripted
import NodeProbe.Component.Stack
import NodeProbe.Component.Table
import NodeProbe.Config
import NodeProbe.Document
import NodeProbe.Failure
import NodeProbe.File.Path
import NodeProbe.File.Tree
import NodeProbe.Main
import NodeProbe.Monitoring
import NodeProbe.Number.Binary
import NodeProbe.Number.Decimal
import NodeProbe.Number.Integer
import NodeProbe.Number.Word
import NodeProbe.Proofs.Deed
import NodeProbe.Proofs.Moves
import NodeProbe.Proofs.WellTyped
import NodeProbe.Request.Attributes
import NodeProbe.Request.Call
import NodeProbe.Request.Dispatch
import NodeProbe.Request.Entries
import NodeProbe.Request.Operations
import NodeProbe.Request.Statistics
import NodeProbe.Request.Verb
import NodeProbe.Service
import NodeProbe.Text.Blank
import NodeProbe.Text.Column
import NodeProbe.Text.Cut
import NodeProbe.Text.Printable
import NodeProbe.Text.Quoted
import NodeProbe.Text.UpperCase
import NodeProbe.Thread.Query
import NodeProbe.Thread.Report
import NodeProbe.Thread.Source
import NodeProbe.Thread.TaskDirectory
import NodeProbe.Toml.Format
import NodeProbe.Toml.Reader
import NodeProbe.Toml.Scalar
import NodeProbe.Toml.Text
import NodeProbe.Toml.Value
import NodeProbe.Toml.Writer
import NodeProbe.Value.Basic
import NodeProbe.Value.Conversion
import NodeProbe.Value.Duration
import NodeProbe.Value.Type
import NodeProbe.Proofs.Carry
import NodeProbe.Proofs.Runs
import NodeProbe.Proofs.View
import NodeProbe.Proofs.CounterBodies
import NodeProbe.Proofs.FailingCommands
import NodeProbe.Proofs.Recording
import NodeProbe.Proofs.TypeSafety
import NodeProbe.Proofs.CounterInvariant
import NodeProbe.Proofs.CounterHistory
import NodeProbe.Proofs.Listing
import NodeProbe.Proofs.EntryLookup
import NodeProbe.Proofs.Paths
import NodeProbe.Proofs.AttributeCommands
import NodeProbe.Proofs.Dump
import NodeProbe.Proofs.NodeSimulation
import NodeProbe.Proofs.Composition
import NodeProbe.Proofs.Routing
import NodeProbe.Proofs.Masking
import NodeProbe.Proofs.ComponentCommands
import NodeProbe.Proofs.SharedStatistics
import NodeProbe.Proofs.Accounting
import NodeProbe.Proofs.WriteRead
import NodeProbe.Proofs.Fallback
import NodeProbe.Proofs.Separation
import NodeProbe.Proofs.Switches
import NodeProbe.Proofs.TaskListing
import NodeProbe.Proofs.Commutation
import NodeProbe.Proofs.WriteChoice
import NodeProbe.Proofs.ByteOrder
import NodeProbe.Proofs.ReportRows
import NodeProbe.Proofs.HandlerLoop
import NodeProbe.Proofs.HandlerRuns
import NodeProbe.Proofs.TomlStrings
import NodeProbe.Proofs.TomlLines
import NodeProbe.Proofs.TomlDocuments
import NodeProbe.Proofs.ConfigRoundTrip
import NodeProbe.Proofs.Padding
import NodeProbe.Proofs.Numerals
import NodeProbe.Proofs.IntegerText
import NodeProbe.Proofs.RenderedText
import NodeProbe.Proofs.CallText
import NodeProbe.Proofs.ItemOrder
import NodeProbe.Proofs.ReportLines
import NodeProbe.Proofs.Rounding
import NodeProbe.Proofs.DurationText
import NodeProbe.Proofs.Grouping
import NodeProbe.Proofs.CountColumns
import NodeProbe.Proofs.ClockTicks
import NodeProbe.Proofs.StatText
import NodeProbe.Proofs.CounterSums
import NodeProbe.Proofs.ListText
import NodeProbe.Proofs.StackBuilding
import NodeProbe.Proofs.TableBuilding
import NodeProbe.Proofs.RequestSums
