import AddressLookup.Fields
import AddressLookup.Report
import AddressLookup.Cache.Storage
import AddressLookup.Config
import AddressLookup.Instant.Text
import AddressLookup.Address
import AddressLookup.Json.Reader
import AddressLookup.Json.Writer
import AddressLookup.Source.Merge
import AddressLookup.Source.Table
import AddressLookup.Source.Journal
import AddressLookup.Http.Site
import AddressLookup.Source.Remote
import AddressLookup.Source.Listing
import AddressLookup.CommandLine.Arguments
import AddressLookup.CommandLine.Run
import AddressLookup.Main
import AddressLookup.Proofs.Text.Cutting
import AddressLookup.Proofs.Text.Trimming
import AddressLookup.Proofs.Query.Grammar
import AddressLookup.Proofs.Query.Reading
import AddressLookup.Proofs.Query.Exactness
import AddressLookup.Proofs.Query.Canonical
import AddressLookup.Proofs.Decimal.Rounding
import AddressLookup.Proofs.Decimal.Packing
import AddressLookup.Proofs.Decimal.Arithmetic
import AddressLookup.Proofs.Decimal.Shortest
import AddressLookup.Proofs.Json.Integer
import AddressLookup.Proofs.Json.Scaling
import AddressLookup.Proofs.Json.Number
import AddressLookup.Proofs.Json.Quoted
import AddressLookup.Proofs.Json.Sequence
import AddressLookup.Proofs.Json.Value
import AddressLookup.Proofs.Json.Reading
import AddressLookup.Proofs.Instant.Calendar
import AddressLookup.Proofs.Instant.Text
import AddressLookup.Proofs.Cache.Document
import AddressLookup.Proofs.Files.Path
import AddressLookup.Proofs.Files.Replace
import AddressLookup.Proofs.Cache.Storage
import AddressLookup.Proofs.Source.Merge
import AddressLookup.Proofs.Source.Paths
import AddressLookup.Proofs.Source.Reopen
import AddressLookup.Proofs.Text.Digits
import AddressLookup.Proofs.Files.Tree
import AddressLookup.Proofs.Query.Rejection
import AddressLookup.Proofs.Address.Separators
import AddressLookup.Proofs.Cache.History
import AddressLookup.Proofs.Query.Fusion
import AddressLookup.Proofs.Query.Pointwise
import AddressLookup.Proofs.Query.Conjunction
import AddressLookup.Proofs.Files.Way
import AddressLookup.Proofs.Files.Beside
import AddressLookup.Proofs.Cache.Atomicity
import AddressLookup.Proofs.Source.Visits
import AddressLookup.Proofs.Source.Session
import AddressLookup.Proofs.Address.Listing
import AddressLookup.Proofs.Source.Order
import AddressLookup.Proofs.Source.Replay
import AddressLookup.Proofs.CommandLine.Lookups
import AddressLookup.Proofs.Json.Indented
import AddressLookup.Proofs.Report.Lossless
import AddressLookup.Proofs.CommandLine.Exits
import AddressLookup.Proofs.CommandLine.Acceptance
import AddressLookup.Proofs.CommandLine.Effects
import AddressLookup.Proofs.Files.Stranding
import AddressLookup.Proofs.Cache.Cleanup
import AddressLookup.Proofs.Instant.Arithmetic
import AddressLookup.Proofs.Cache.Lifetime
import AddressLookup.Proofs.Address.Groups
import AddressLookup.Proofs.Address.Scan
import AddressLookup.Proofs.Source.Fetches
import AddressLookup.Proofs.Source.Twins
import AddressLookup.Proofs.Source.Execution
import AddressLookup.Proofs.Source.Steady
import AddressLookup.Proofs.Cache.Canonical
import AddressLookup.Proofs.Fields.Recovery
import AddressLookup.Proofs.Query.Sets
import AddressLookup.Proofs.Query.Trichotomy
import AddressLookup.Proofs.Report.Unambiguous
import AddressLookup.Proofs.Report.Lines
import AddressLookup.Proofs.Files.Components
import AddressLookup.Proofs.Files.Apart
import AddressLookup.Proofs.Source.Saves
import AddressLookup.Proofs.Text.Lossy
import AddressLookup.Proofs.Config
