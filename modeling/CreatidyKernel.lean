import CreatidyKernel.Application.Remediation
import CreatidyKernel.Application.RemediationSafety
import CreatidyKernel.Codec.Bytes
import CreatidyKernel.Codec.Command
import CreatidyKernel.Codec.Fingerprint
import CreatidyKernel.Codec.Program
import CreatidyKernel.Codec.Records
import CreatidyKernel.Codec.ReviewReceipt
import CreatidyKernel.Core.Acceptance
import CreatidyKernel.Core.Admission
import CreatidyKernel.Core.AppendOnly
import CreatidyKernel.Core.Closure
import CreatidyKernel.Core.Coherence
import CreatidyKernel.Core.DeadlineBoundary
import CreatidyKernel.Core.Deadlines
import CreatidyKernel.Core.Extension
import CreatidyKernel.Core.Facts
import CreatidyKernel.Core.Gating
import CreatidyKernel.Core.GraphAdmission
import CreatidyKernel.Core.Lineage
import CreatidyKernel.Core.Locality
import CreatidyKernel.Core.OutcomeExport
import CreatidyKernel.Core.Outcomes
import CreatidyKernel.Core.Ownership
import CreatidyKernel.Core.Pause
import CreatidyKernel.Core.ProductReview
import CreatidyKernel.Core.Program
import CreatidyKernel.Core.Progress
import CreatidyKernel.Core.Projection
import CreatidyKernel.Core.Reordering
import CreatidyKernel.Core.Resolution
import CreatidyKernel.Core.Spec
import CreatidyKernel.Core.Values
import CreatidyKernel.Core.Verification
import CreatidyKernel.Core.Withdrawal
import CreatidyKernel.Core.WorkBudget
import CreatidyKernel.Intake.Ages
import CreatidyKernel.Intake.Discovery
import CreatidyKernel.Intake.DraftCodec
import CreatidyKernel.Intake.Histories
import CreatidyKernel.Intake.Keys
import CreatidyKernel.Intake.Listings
import CreatidyKernel.Intake.Meaning
import CreatidyKernel.Intake.Namespaces
import CreatidyKernel.Intake.Ordinary
import CreatidyKernel.Intake.Proposals
import CreatidyKernel.Intake.Reading
import CreatidyKernel.Intake.Recording
import CreatidyKernel.Intake.Records
import CreatidyKernel.Intake.Soundness
import CreatidyKernel.Lib.Action
import CreatidyKernel.Lib.Checked
import CreatidyKernel.Lib.Corrections
import CreatidyKernel.Lib.Decimal
import CreatidyKernel.Lib.Delimited
import CreatidyKernel.Lib.Json
import CreatidyKernel.Lib.JsonText
import CreatidyKernel.Lib.Layers
import CreatidyKernel.Lib.Links
import CreatidyKernel.Lib.Once
import CreatidyKernel.Lib.Pages
import CreatidyKernel.Lib.Rows
import CreatidyKernel.Lib.Runs
import CreatidyKernel.Lib.SortedBy
import CreatidyKernel.Lib.Trace
import CreatidyKernel.Publication.Forge
import CreatidyKernel.Publication.Once
import CreatidyKernel.Publication.Readback
import CreatidyKernel.Publication.Sync
import CreatidyKernel.Routing.AllocationCodec
import CreatidyKernel.Routing.Demands
import CreatidyKernel.Routing.Requirements
import CreatidyKernel.Routing.Router
import CreatidyKernel.Routing.Selection
import CreatidyKernel.Runtime.Bubblewrap
import CreatidyKernel.Runtime.BubblewrapSafety
import CreatidyKernel.Runtime.Codex
import CreatidyKernel.Runtime.CodexHandles
import CreatidyKernel.Runtime.CodexLifecycle
import CreatidyKernel.Runtime.Stdio
import CreatidyKernel.Runtime.StdioClosing
import CreatidyKernel.Runtime.StdioFrames
import CreatidyKernel.Served.AtMostOnce
import CreatidyKernel.Served.Commands
import CreatidyKernel.Served.Paging
import CreatidyKernel.Source.CacheIdentity
import CreatidyKernel.Source.Canonical
import CreatidyKernel.Store.Capacity
import CreatidyKernel.Store.Claims
import CreatidyKernel.Store.Clock
import CreatidyKernel.Store.ClockSafety
import CreatidyKernel.Store.CommandKeys
import CreatidyKernel.Store.DispatchSafety
import CreatidyKernel.Store.Evidence
import CreatidyKernel.Store.History
import CreatidyKernel.Store.HistorySafety
import CreatidyKernel.Store.Journal
import CreatidyKernel.Store.JournalSafety
import CreatidyKernel.Store.Keeping
import CreatidyKernel.Store.Reopening
import CreatidyKernel.Store.Retention
import CreatidyKernel.Store.Revocation
import CreatidyKernel.Store.Usage
import CreatidyKernel.Store.UsageExport
import CreatidyKernel.Store.UsageSafety
import CreatidyKernel.Store.UsageTotals
import CreatidyKernel.Store.Work
import CreatidyKernel.Store.WorkCalls
import CreatidyKernel.Store.WorkGuards
import CreatidyKernel.Store.WorkRecords
import CreatidyKernel.Store.Writes
