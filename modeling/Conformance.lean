import Conformance.Text.Blank
import Conformance.Text.Lines
import Conformance.Text.Utf8
import Conformance.Text.Wrap
import Conformance.Sorted
import Conformance.Outcome
import Conformance.CaseId
import Conformance.Key
import Conformance.Policy
import Conformance.Json.Value
import Conformance.Json.Read
import Conformance.Run
import Conformance.Markup.Entity
import Conformance.Markup.Attribute
import Conformance.Markup.Reader
import Conformance.Log.Payload
import Conformance.Log.Line
import Conformance.Log.Reader
import Conformance.Autotest
import Conformance.Baseline.Basic
import Conformance.Baseline.File
import Conformance.Baseline.Fold
import Conformance.Disk
import Conformance.Store
import Conformance.Merge
import Conformance.Caselist
import Conformance.Plan
import Conformance.Toml.Value
import Conformance.Toml.Literal
import Conformance.Toml.Read
import Conformance.Settings
import Conformance.Cli.Invocation
import Conformance.Cli.Palette
import Conformance.Cli.Grammar
import Conformance.Cli.Help
import Conformance.Cli.Failure
import Conformance.Cli.Report
import Conformance.Cli.Session
import Conformance.Cli.Footprint
import Conformance.Main
import Conformance.Proofs.Sorted
import Conformance.Proofs.Baseline
import Conformance.Proofs.Fold
import Conformance.Proofs.FoldRuns
import Conformance.Proofs.FlakyOrder
import Conformance.Proofs.LogEvents
import Conformance.Proofs.LogBlocks
import Conformance.Proofs.PayloadStatus
import Conformance.Proofs.JsonTable
import Conformance.Proofs.BaselineFile
import Conformance.Proofs.BaselineChecks
import Conformance.Proofs.Utf8
import Conformance.Proofs.DiskTree
import Conformance.Proofs.StoreFiles
import Conformance.Proofs.ResolvedRoot
import Conformance.Proofs.SaveFailure
import Conformance.Proofs.StoreHistory
import Conformance.Proofs.StoreConfinement
import Conformance.Proofs.MergeHistory
import Conformance.Proofs.PlanSelection
import Conformance.Proofs.SessionSteps
import Conformance.Proofs.MergeLoads
import Conformance.Proofs.TallyViews
import Conformance.Proofs.AutotestResults
import Conformance.Proofs.MergeCommand
import Conformance.Proofs.ReaderStates
import Conformance.Proofs.CaseFilter
