import ResourceAudit.Command.Arguments

/-!
# Command lines

A command line holds general options, the name of a command, and the options and operands of that
command.
-/

namespace ResourceAudit

/-! ## Commands -/

/-- Which schema to print. -/
inductive SchemaKind where
  | report
  | settings
deriving DecidableEq, Repr

namespace SchemaKind

def all : List SchemaKind := [report, settings]

def name : SchemaKind → String
  | report => "report"
  | settings => "config"

def ofName? (name : String) : Option SchemaKind := all.find? fun k => k.name = name

end SchemaKind

/-- What an audit reads and writes. -/
structure CheckOptions where
  document : String
  reportFile : String
  writesMarkdown : Bool
  markdownFile : String
  parallel : Bool
deriving DecidableEq, Repr

inductive Command where
  /-- Audits a document and leaves a report. -/
  | check (options : CheckOptions)
  /-- Shows a report in Markdown, or writes it to a file. -/
  | markdown (reportFile : String) (output : Option String)
  /-- Explains a check. -/
  | explain (id : String)
  /-- Lists the checks and whether they are enabled. -/
  | listChecks
  /-- Prints a schema. -/
  | schema (kind : SchemaKind)
deriving DecidableEq, Repr

/-- A command with the options that stand in front of it. The log filter is accepted; nothing is
logged. -/
structure CommandLine where
  settingsFile : String
  profile : Option String
  logFilter : String
  command : Command
deriving DecidableEq, Repr

/-! ## Reading -/

namespace Command

open Arguments

/-- The report that is written and read where no other is named. -/
def defaultReportFile : String := "artifacts/iacguard/report.json"

def checkForm : Form where
  options :=
    [⟨"input", none, true⟩, ⟨"report-out", none, true⟩, ⟨"write-markdown", none, false⟩,
      ⟨"markdown-out", none, true⟩, ⟨"parallel", none, false⟩]
  operands := []
  leadsToCommand := false

def readCheck (words : List String) : Except Halt Command := do
  let (g, _) ← read checkForm .none words
  match g.value? "input" with
  | none => throw (.refused (.required "--input"))
  | some document =>
    return .check
      { document := document
        reportFile := (g.value? "report-out").getD defaultReportFile
        writesMarkdown := g.has "write-markdown"
        markdownFile := (g.value? "markdown-out").getD "artifacts/iacguard/comment.md"
        parallel := g.has "parallel" }

def markdownForm : Form where
  options := [⟨"report", none, true⟩, ⟨"output", some 'o', true⟩]
  operands := []
  leadsToCommand := false

def readMarkdown (words : List String) : Except Halt Command := do
  let (g, _) ← read markdownForm .none words
  return .markdown ((g.value? "report").getD defaultReportFile) (g.value? "output")

def operandForm (operands : List OperandForm) : Form := ⟨[], operands, false⟩

def checkId : OperandForm := ⟨"<IDENTIFIER>", none⟩

def readExplain (words : List String) : Except Halt Command := do
  let (g, _) ← read (operandForm [checkId]) .none words
  match g.operands.head? with
  | none => throw (.refused (.required checkId.name))
  | some id => return .explain id

def readListChecks (words : List String) : Except Halt Command := do
  let _ ← read (operandForm []) .none words
  return .listChecks

def schemaKind : OperandForm := ⟨"[KIND]", some (SchemaKind.all.map (·.name))⟩

def readSchema (words : List String) : Except Halt Command := do
  let (g, _) ← read (operandForm [schemaKind]) .none words
  match g.operands.head? with
  | none => return .schema .report
  | some name =>
    match SchemaKind.ofName? name with
    | some kind => return .schema kind
    | none => throw (.refused (.invalid schemaKind.name name))

def readers : List (String × (List String → Except Halt Command)) :=
  [("check", readCheck), ("md", readMarkdown), ("explain", readExplain),
    ("list-checks", readListChecks), ("schema", readSchema)]

/-- Asks for help, in general or on one command. No command has commands of its own. -/
def readHelp : List String → Halt
  | [] => .help
  | name :: rest =>
    if name = "help" || (readers.lookup name).isSome then
      match rest with
      | [] => .help
      | other :: _ => .refused (.unknownCommand other)
    else .refused (.unknownCommand name)

def ofWords (name : String) (words : List String) : Except Halt Command :=
  match readers.lookup name with
  | some reader => reader words
  | none => if name = "help" then .error (readHelp words) else .error (.refused (.unknownCommand name))

end Command

namespace CommandLine

open Arguments

def form : Form where
  options :=
    [⟨"config", none, true⟩, ⟨"profile", none, true⟩, ⟨"log-level", none, true⟩]
  operands := []
  leadsToCommand := true

def ofWords (words : List String) : Except Halt CommandLine := do
  let (g, behind) ← read form .none words
  match behind with
  | [] => throw (.refused .noCommand)
  | name :: words =>
    return {
      settingsFile := (g.value? "config").getD "iacguard.toml"
      profile := g.value? "profile"
      logFilter := (g.value? "log-level").getD "warn"
      command := ← Command.ofWords name words }

end CommandLine

end ResourceAudit
