import LocaleKeys.Canonical
import LocaleKeys.Command.Run
import LocaleKeys.Engine
import LocaleKeys.Main
import LocaleKeys.Project
import LocaleKeys.Workers
import LocaleKeys.Proofs.Assoc
import LocaleKeys.Proofs.Json.Spelling
import LocaleKeys.Proofs.Number.Rounding
import LocaleKeys.Proofs.Number.Shortest
import LocaleKeys.Proofs.Json.Literal
import LocaleKeys.Proofs.Json.Numeral
import LocaleKeys.Proofs.Json.Grammar
import LocaleKeys.Proofs.Key.Occurrence
import LocaleKeys.Proofs.Key.Scan
import LocaleKeys.Proofs.Key.ScanText
import LocaleKeys.Proofs.Json.RoundTrip
import LocaleKeys.Proofs.Json.Written
import LocaleKeys.Proofs.Key.Insert
import LocaleKeys.Proofs.Resource.Patch
import LocaleKeys.Proofs.Key.Frame
import LocaleKeys.Proofs.Resource.Undisturbed
import LocaleKeys.Proofs.Catalog.Lookup
import LocaleKeys.Proofs.Catalog.Contribution
import LocaleKeys.Proofs.Resource.Planned
import LocaleKeys.Proofs.Stable
import LocaleKeys.Proofs.Diagnostic.Order
import LocaleKeys.Proofs.Diagnostic.Written
import LocaleKeys.Proofs.Engine.Pass
import LocaleKeys.Proofs.Hash.Digest
import LocaleKeys.Proofs.Schema.Accepts
import LocaleKeys.Proofs.Schema.Report
import LocaleKeys.Proofs.Platform
import LocaleKeys.Proofs.Check.Report
import LocaleKeys.Proofs.Catalog.CasePolicy
import LocaleKeys.Proofs.Check.ExitCode
import LocaleKeys.Proofs.Culture
import LocaleKeys.Proofs.Resource.Completion
import LocaleKeys.Proofs.Discovery
import LocaleKeys.Proofs.Discovery.Folders
import LocaleKeys.Proofs.Except
import LocaleKeys.Proofs.Command.Plan
import LocaleKeys.Proofs.Check.Run
import LocaleKeys.Proofs.Command.Run
import LocaleKeys.Proofs.Catalog.Agreement
import LocaleKeys.Proofs.Catalog.Append
import LocaleKeys.Proofs.Catalog.Repeats
import LocaleKeys.Proofs.Disk.Plain
import LocaleKeys.Proofs.Disk.Growth
import LocaleKeys.Proofs.Disk.Order
import LocaleKeys.Proofs.Discovery.Pattern
import LocaleKeys.Proofs.Discovery.Found
import LocaleKeys.Proofs.Check.Again
import LocaleKeys.Proofs.Suggest.Distance
import LocaleKeys.Proofs.Suggest.Ranking
import LocaleKeys.Proofs.Disk.Rewrite
import LocaleKeys.Proofs.Resource.Apply
import LocaleKeys.Proofs.Suggest.Places
import LocaleKeys.Proofs.Key.Members
import LocaleKeys.Proofs.Key.Reorder
import LocaleKeys.Proofs.Key.Rebuild
import LocaleKeys.Proofs.Text.Position
import LocaleKeys.Proofs.Key.ScanPlace
import LocaleKeys.Proofs.Key.Locate
import LocaleKeys.Proofs.Key.Anchor
import LocaleKeys.Proofs.Key.Plain
import LocaleKeys.Proofs.Catalog.Leaves
import LocaleKeys.Proofs.Catalog.Collision
import LocaleKeys.Proofs.Catalog.Placed
import LocaleKeys.Proofs.Key.Place
import LocaleKeys.Proofs.Catalog.Unrepeated
import LocaleKeys.Proofs.Catalog.Counts
import LocaleKeys.Proofs.Settings.ReadBack
import LocaleKeys.Proofs.Text.Utf8
import LocaleKeys.Proofs.Datum
import LocaleKeys.Proofs.Settings.Unwritten
import LocaleKeys.Proofs.Command.Settings
import LocaleKeys.Proofs.Canonical
import LocaleKeys.Proofs.Diagnostic.Fingerprint
import LocaleKeys.Proofs.Engine.Cancellation
import LocaleKeys.Proofs.Check.RunId
import LocaleKeys.Proofs.Path
import LocaleKeys.Proofs.Culture.Spelling
import LocaleKeys.Proofs.Discovery.Usual
import LocaleKeys.Proofs.Source.Walk
import LocaleKeys.Proofs.Source.Names
import LocaleKeys.Proofs.Source.Usages
