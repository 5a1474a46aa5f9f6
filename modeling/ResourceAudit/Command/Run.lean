import ResourceAudit.Audit
import ResourceAudit.Command
import ResourceAudit.Command.Exit
import ResourceAudit.Explanation
import ResourceAudit.Files.Host
import ResourceAudit.Report.Decode
import ResourceAudit.Report.Digest
import ResourceAudit.Report.Markdown
import ResourceAudit.Report.Schema
import ResourceAudit.Settings.Schema

/-!
# Running commands

Commands run on any host. An audit that fails, at whatever point, leaves a failing report with the
error in place of any other, and ends with code 1.
-/

namespace ResourceAudit

/-! ## Errors -/

/-- What a command reads. -/
inductive Source where
  | settings
  | document
  | report
deriving DecidableEq, Repr

def Source.context (path : String) : Source → String
  | settings => s!"read config: {path}"
  | document => s!"read input: {path}"
  | report => s!"read report: {path}"

/-- What a command writes. -/
inductive Artifact where
  | report
  | markdown
  | output
deriving DecidableEq, Repr

namespace Artifact

def context : Artifact → String
  | report => "write report json"
  | markdown => "write markdown"
  | output => "write markdown output"

def fileContext (path : String) : Artifact → String
  | report => s!"write report: {path}"
  | _ => s!"write text: {path}"

end Artifact

/-- Why a file was not written: its directory could not be made, or it could not. -/
inductive WriteFault where
  | directory (path : String) (error : FileError)
  | file (error : FileError)
deriving DecidableEq, Repr

/-- Why a command failed. -/
inductive CommandError where
  | unread (source : Source) (path : String) (error : FileError)
  | unwritten (artifact : Artifact) (path : String) (fault : WriteFault)
  | audit (error : AuditError)
  | report (error : ReportError)
deriving DecidableEq, Repr

/-- The chain of causes, the outermost first. -/
def CommandError.chain : CommandError → List String
  | unread source path error => [source.context path, error.message]
  | unwritten artifact _ (.directory path error) =>
    [artifact.context, s!"create directory: {path}", error.message]
  | unwritten artifact path (.file error) =>
    [artifact.context, artifact.fileContext path, error.message]
  | audit error => error.chain
  | report error => error.chain

abbrev Steps (m : Type → Type) (α : Type) : Type := ExceptT CommandError m α

def SchemaKind.text : SchemaKind → String
  | report => Report.schemaText
  | settings => Settings.schemaText

namespace Command

variable {m : Type → Type} [Monad m] [Host m]

/-! ## Files -/

def readFrom (source : Source) (path : String) : Steps m String := do
  match ← (Host.readText path : m _) with
  | .ok text => return text
  | .error e => throw (.unread source path e)

/-- Reads the settings. A file that is not there says nothing. -/
def readSettings (path : String) : Steps m String := do
  match ← (Host.readText path : m _) with
  | .ok text => return text
  | .error .missing => return ""
  | .error e => throw (.unread .settings path e)

/-- Makes the directory that a file goes into; a single name needs none. -/
def makeRoom (artifact : Artifact) (path : String) : Steps m Unit := do
  match Path.parent? path with
  | none => return
  | some parent =>
    if parent.isEmpty then return
    match ← (Host.makeDirectories parent : m _) with
    | .ok () => return
    | .error e => throw (.unwritten artifact path (.directory parent e))

/-- Writes a file, and the directories above it. -/
def writeTo (artifact : Artifact) (path text : String) : Steps m Unit := do
  makeRoom artifact path
  match ← (Host.writeText path text : m _) with
  | .ok () => return
  | .error e => throw (.unwritten artifact path (.file e))

/-! ## Auditing -/

def overrides (line : CommandLine) (parallel : Bool) : Overrides :=
  ⟨line.profile, if parallel then some true else none⟩

/-- The audit that a command line asks for, of texts that were read. -/
def auditRequest (line : CommandLine) (o : CheckOptions) (settings document : String)
    (startedAt : Timestamp) : AuditRequest :=
  { settings, document, startedAt
    overrides := overrides line o.parallel
    token := none
    cancelled := []
    around := .quiet }

/-- Audits the document, and writes the report and what else is asked for. -/
def auditSteps (b : Build) (line : CommandLine) (o : CheckOptions) : Steps m Report := do
  let settings ← readSettings line.settingsFile
  let document ← readFrom .document o.document
  let startedAt ← (Host.now : m Timestamp)
  match audit b (auditRequest line o settings document startedAt) with
  | .error e => throw (.audit e)
  | .ok done =>
    let report := done.report.finish (← (Host.now : m Timestamp))
    writeTo .report o.reportFile report.serialize
    if o.writesMarkdown then writeTo .markdown o.markdownFile report.markdown
    return report

/-- Leaves the report of an error, if it can be written. -/
def leaveError (path message : String) : m Unit := do
  let report := Report.ofError message (← Host.now)
  let _ ← (writeTo .report path report.serialize : Steps m Unit).run

def runCheck (b : Build) (line : CommandLine) (o : CheckOptions) : m Exit := do
  match ← (auditSteps b line o).run with
  | .ok report => return ⟨report.outcome.exitCode, report.digest, ""⟩
  | .error e =>
    let message := causesInLine e.chain
    leaveError o.reportFile message
    return ⟨1, "", s!"iacguard error: {message}\n"⟩

/-! ## Other commands -/

def printing (steps : Steps m String) : m Exit := do
  match ← steps.run with
  | .ok text => return .success text
  | .error e => return .failure "" "" e.chain

def runMarkdown (reportFile : String) (output : Option String) : m Exit :=
  printing do
    let text ← readFrom .report reportFile
    match Report.parse text with
    | .error e => throw (.report e)
    | .ok report =>
      match output with
      | none => return report.markdown
      | some path =>
        writeTo .output path report.markdown
        return ""

def runExplain (id : String) : Exit :=
  match Explanation.of? id with
  | some e => .success e.text
  | none => ⟨1, "", Explanation.unknownText id⟩

/-- A check on a line, its parts between tabs. -/
def checkLine (c : ListedCheck) : String :=
  "\t".intercalate
    [c.info.id, if c.isEnabled then "enabled" else "disabled",
      ",".intercalate (c.info.categories.map (·.tag)), ",".intercalate c.info.resourceTypes,
      c.info.name] ++ "\n"

def runListChecks (b : Build) (line : CommandLine) : m Exit :=
  printing do
    let settings ← readSettings line.settingsFile
    match ResourceAudit.listChecks b settings (overrides line false) with
    | .error e => throw (.audit e)
    | .ok checks => return String.join (checks.map checkLine)

def run (b : Build) (line : CommandLine) : m Exit :=
  match line.command with
  | .check o => runCheck b line o
  | .markdown reportFile output => runMarkdown reportFile output
  | .explain id => return runExplain id
  | .listChecks => runListChecks b line
  | .schema kind => return .success (kind.text ++ "\n")

/-! ## The program -/

def usage : String :=
  "Usage: iacguard [--config <FILE>] [--profile <NAME>] [--log-level <FILTER>] <COMMAND>\n\n" ++
  "Commands:\n" ++
  "  check --input <FILE> [--report-out <FILE>] [--write-markdown] [--markdown-out <FILE>]\n" ++
  "        [--parallel]\n" ++
  "  md [--report <FILE>] [--output <FILE>]\n" ++
  "  explain <IDENTIFIER>\n" ++
  "  list-checks\n" ++
  "  schema [report|config]\n"

/-- The end of a command line that asks for no command or is refused. -/
def halt : Halt → Exit
  | .help => .success usage
  | .version => .success s!"{Tool.this.name} {Tool.this.version}\n"
  | .refused e => ⟨2, "", s!"error: {e.message}\n\n{usage}"⟩

def runWords (b : Build) (words : List String) : m Exit :=
  match CommandLine.ofWords words with
  | .ok line => run b line
  | .error h => return halt h

end Command

end ResourceAudit
