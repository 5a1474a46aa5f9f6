import ResourceAudit.Command.Run
import ResourceAudit.Command.Upkeep
import ResourceAudit.Files.World
import ResourceAudit.Inspection
import ResourceAudit.Main
import ResourceAudit.Proofs.Audit.Consistency
import ResourceAudit.Proofs.Audit.Isolation
import ResourceAudit.Proofs.Audit.Listing
import ResourceAudit.Proofs.Audit.Narrowing
import ResourceAudit.Proofs.Audit.Verdict
import ResourceAudit.Proofs.Check.Normalization
import ResourceAudit.Proofs.Command.Check
import ResourceAudit.Proofs.Command.Markdown
import ResourceAudit.Proofs.Command.Steps
import ResourceAudit.Proofs.Command.Upkeep
import ResourceAudit.Proofs.Configuration.Outline
import ResourceAudit.Proofs.Configuration.Recovery
import ResourceAudit.Proofs.Configuration.Values
import ResourceAudit.Proofs.Configuration.Wrapper
import ResourceAudit.Proofs.Decode
import ResourceAudit.Proofs.Evaluation.Rearrangement
import ResourceAudit.Proofs.Evaluation.Rewriting
import ResourceAudit.Proofs.Evaluation.Schedules
import ResourceAudit.Proofs.Files.Folder
import ResourceAudit.Proofs.Files.Tree
import ResourceAudit.Proofs.Files.World
import ResourceAudit.Proofs.Finding.Summary
import ResourceAudit.Proofs.Json.Builders
import ResourceAudit.Proofs.Json.Numeral
import ResourceAudit.Proofs.Json.Quoted
import ResourceAudit.Proofs.Json.Writer
import ResourceAudit.Proofs.Registry.History
import ResourceAudit.Proofs.Report.Conformance
import ResourceAudit.Proofs.Report.Encoding
import ResourceAudit.Proofs.Report.Lines
import ResourceAudit.Proofs.Report.RoundTrip
import ResourceAudit.Proofs.Schema.Conformance
import ResourceAudit.Proofs.Settings.Resolution
import ResourceAudit.Proofs.Timestamp
