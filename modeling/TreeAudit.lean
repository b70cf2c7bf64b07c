import TreeAudit.Check.Builtin
import TreeAudit.Check.Composite
import TreeAudit.Check.Machine
import TreeAudit.Check.Orphan
import TreeAudit.Check.Progress
import TreeAudit.Check.Summary
import TreeAudit.CommandLine.Arguments
import TreeAudit.CommandLine.Switch
import TreeAudit.Config.Basic
import TreeAudit.Config.Decode
import TreeAudit.Config.Loading
import TreeAudit.Config.RunId
import TreeAudit.Csv.Record
import TreeAudit.Database.Affinity
import TreeAudit.Database.Bytes
import TreeAudit.Database.Catalog
import TreeAudit.Database.Computable
import TreeAudit.Database.Conversion
import TreeAudit.Database.Draft
import TreeAudit.Database.Encoding
import TreeAudit.Database.Evaluation
import TreeAudit.Database.Fault
import TreeAudit.Database.Function.Application
import TreeAudit.Database.Function.Json
import TreeAudit.Database.Function.JsonTree
import TreeAudit.Database.Function.JsonTree.Path
import TreeAudit.Database.Function.JsonTree.Reader
import TreeAudit.Database.Function.Pattern
import TreeAudit.Database.Function.Signature
import TreeAudit.Database.Function.Text
import TreeAudit.Database.Image
import TreeAudit.Database.Log
import TreeAudit.Database.Name
import TreeAudit.Database.Numeral
import TreeAudit.Database.Payload
import TreeAudit.Database.Plan
import TreeAudit.Database.Query
import TreeAudit.Database.Record
import TreeAudit.Database.Row
import TreeAudit.Database.Schema
import TreeAudit.Database.Search
import TreeAudit.Database.Statement.Creation
import TreeAudit.Database.Statement.Expression
import TreeAudit.Database.Statement.ExpressionReader
import TreeAudit.Database.Statement.Meaning
import TreeAudit.Database.Statement.Reader
import TreeAudit.Database.Statement.Token
import TreeAudit.Database.Tree
import TreeAudit.Database.Value
import TreeAudit.Database.Walk
import TreeAudit.Digest.Sha256
import TreeAudit.Document.Basic
import TreeAudit.Document.Id
import TreeAudit.Document.Path
import TreeAudit.Duration
import TreeAudit.FileSystem
import TreeAudit.Json.Chars
import TreeAudit.Json.Cursor
import TreeAudit.Json.Error
import TreeAudit.Json.Numeral
import TreeAudit.Json.Quoted
import TreeAudit.Json.Skip
import TreeAudit.Json.Value
import TreeAudit.Main
import TreeAudit.Numeric.Binary64
import TreeAudit.Numeric.Decimal
import TreeAudit.Numeric.Natural
import TreeAudit.Numeric.Rounding
import TreeAudit.Numeric.SignedArithmetic
import TreeAudit.Numeric.SignedBinary64
import TreeAudit.Output.Format
import TreeAudit.Output.Sink
import TreeAudit.Output.Target
import TreeAudit.Output.Writer
import TreeAudit.Program
import TreeAudit.Proofs.Check.MistakenFlags
import TreeAudit.Proofs.Check.OrphanReport
import TreeAudit.Proofs.Check.OrphanRun
import TreeAudit.Proofs.Check.Outlet
import TreeAudit.Proofs.Check.TrustedFlags
import TreeAudit.Proofs.Reachability.Crew
import TreeAudit.Proofs.Reachability.Exactness
import TreeAudit.Proofs.Reachability.Insertion
import TreeAudit.Proofs.Reachability.Ledger
import TreeAudit.Proofs.Reachability.Listing
import TreeAudit.Proofs.Reachability.Parked
import TreeAudit.Proofs.Reachability.Pool
import TreeAudit.Proofs.Reachability.Sharding
import TreeAudit.Proofs.Reachability.Turns
import TreeAudit.Proofs.Text.ByteOrder
import TreeAudit.Proofs.Text.Splitting
import TreeAudit.Reachability.Crew
import TreeAudit.Reachability.Index
import TreeAudit.Reachability.Shard
import TreeAudit.Reachability.Sharded
import TreeAudit.Report.Csv
import TreeAudit.Report.Entry
import TreeAudit.Report.Json
import TreeAudit.Report.Projection
import TreeAudit.Report.Queue
import TreeAudit.Report.Text
import TreeAudit.Run
import TreeAudit.Store.Basic
import TreeAudit.Store.Contents
import TreeAudit.Store.Dump
import TreeAudit.Store.Location
import TreeAudit.Store.Opening
import TreeAudit.Store.Paging
import TreeAudit.Store.Payload
import TreeAudit.Store.Table
import TreeAudit.Text.Blank
import TreeAudit.Text.Escaped
import TreeAudit.Text.Lines
import TreeAudit.Text.PathName
import TreeAudit.Text.Split
import TreeAudit.Text.Unprintable
import TreeAudit.Text.Unsigned
import TreeAudit.Text.Utf8
import TreeAudit.Yaml.Characters
import TreeAudit.Yaml.Document
import TreeAudit.Yaml.Event
import TreeAudit.Yaml.Fault
import TreeAudit.Yaml.Resolved
import TreeAudit.Yaml.Scalar.Block
import TreeAudit.Yaml.Scalar.Folding
import TreeAudit.Yaml.Scalar.Plain
import TreeAudit.Yaml.Scalar.Quoted
import TreeAudit.Yaml.Source
import TreeAudit.Yaml.Tag
import TreeAudit.Yaml.Token
import TreeAudit.Proofs.Document.TreePath
import TreeAudit.Proofs.Document.StoredNode
import TreeAudit.Proofs.Check.PathTree
import TreeAudit.Proofs.Check.LongPaths
import TreeAudit.Proofs.Check.Builtins
import TreeAudit.Proofs.Output.Delivery
import TreeAudit.Proofs.Run.Course
import TreeAudit.Proofs.Run.Stream
import TreeAudit.Proofs.Check.Isolation
import TreeAudit.Proofs.Output.Independence
import TreeAudit.Proofs.Run.Accounts
import TreeAudit.Proofs.Run.Cancellation
import TreeAudit.Proofs.Store.TableScan
import TreeAudit.Proofs.Store.Decoding
import TreeAudit.Proofs.Output.ReportFile
import TreeAudit.Proofs.Output.TextFile
import TreeAudit.Proofs.Json.Quoting
import TreeAudit.Proofs.Report.JsonObject
import TreeAudit.Proofs.Output.JsonFile
import TreeAudit.Proofs.Csv.Reading
import TreeAudit.Proofs.Output.CsvFile
import TreeAudit.Proofs.Store.Portable
import TreeAudit.Proofs.Run.Backends
import TreeAudit.Proofs.Output.Crash
import TreeAudit.Proofs.Output.Relay
import TreeAudit.Proofs.Check.Offers
import TreeAudit.Proofs.Run.Departure
import TreeAudit.Proofs.Run.Advisory
import TreeAudit.Proofs.FileSystem.Writing
import TreeAudit.Proofs.Program.Footprint
import TreeAudit.Proofs.Check.Nesting
import TreeAudit.Proofs.Document.Lineage
import TreeAudit.Proofs.Store.DumpScan
import TreeAudit.Proofs.Store.KeyedDecoding
import TreeAudit.Proofs.Document.Ascent
import TreeAudit.Proofs.Check.Cadence
import TreeAudit.Proofs.Check.Retention
import TreeAudit.Proofs.Reachability.Replies
import TreeAudit.Proofs.Reachability.Amortization
