import ResourceAudit.Command.Exit
import ResourceAudit.Explanation
import ResourceAudit.Files.Host
import ResourceAudit.Report.Schema
import ResourceAudit.Settings.Schema

/-!
# Upkeep

Tasks for those who maintain the program: the published schemas are written to a directory and
compared with what would be written, and every check must have a complete explanation.
-/

namespace ResourceAudit

/-! ## Published schemas -/

/-- A schema as it is published in a file. -/
structure Publication where
  id : String
  text : String
deriving DecidableEq, Repr

namespace Publication

def fileName (p : Publication) : String := p.id ++ ".json"

/-- The schemas that are published, each with a line break at its end. -/
def all : List Publication :=
  [⟨Report.schemaId, Report.schemaText ++ "\n"⟩, ⟨Settings.schemaId, Settings.schemaText ++ "\n"⟩]

end Publication

/-! ## Errors -/

/-- Why a task failed. -/
inductive TaskError where
  | unknown (name : String)
  | nowhere (error : FileError)
  | directory (error : FileError)
  | unwritten (path : String) (error : FileError)
  | unread (path : String) (error : FileError)
  | drift
  | coverage (gaps : Nat)
deriving DecidableEq, Repr

/-- The chain of causes, the outermost first. Without a task there is none that failed. -/
def TaskError.chain : TaskError → List String
  | unknown name => [s!"unknown xtask command: {name}\n\nRun `cargo xtask help` for usage."]
  | nowhere error => [failed, "determine current directory", error.message]
  | directory error => [failed, "Failed to create schemas directory", error.message]
  | unwritten path error => [failed, s!"Failed to write schema to {path}", error.message]
  | unread path error => [failed, s!"Failed to read {path}", error.message]
  | drift => [failed, "Schema validation failed"]
  | coverage gaps => [failed, s!"Explain coverage validation failed with {gaps} errors"]
where
  failed : String := "xtask failed"

namespace Upkeep

/-- Lines, each ended by a line break. -/
def lines (ls : List String) : String := String.join (ls.map (· ++ "\n"))

variable {m : Type → Type} [Monad m] [Host m]

/-! ## Writing schemas -/

/-- Writes publications up to the first that cannot be written, with a line on each. -/
def writeAll (directory : String) : List Publication → m (List String × Option TaskError)
  | [] => return ([], none)
  | p :: rest => do
    let path := Path.join directory p.fileName
    match ← Host.writeText path p.text with
    | .error e => return ([], some (.unwritten path e))
    | .ok () =>
      let (ls, e) ← writeAll directory rest
      return (s!"Wrote {path}" :: ls, e)

def emitSchemas (directory : String) : m Exit := do
  match ← Host.makeDirectories directory with
  | .error e => return .failure "" "" (TaskError.chain (.directory e))
  | .ok () =>
    match ← writeAll directory Publication.all with
    | (ls, none) => return .success (lines (ls ++ ["", "Schemas emitted successfully."]))
    | (ls, some e) => return .failure (lines ls) "" e.chain

/-! ## Validating schemas -/

/-- How a published file differs from what would be written. -/
inductive Drift where
  | missing
  | outOfDate
deriving DecidableEq, Repr

/-- How the file of a publication differs, if it does. -/
def driftOf (directory : String) (p : Publication) : m (Except TaskError (Option Drift)) := do
  let path := Path.join directory p.fileName
  if !(← Host.isPresent path) then return .ok (some .missing)
  match ← Host.readText path with
  | .error e => return .error (.unread path e)
  | .ok text => return .ok (if text = p.text then none else some .outOfDate)

/-- The names of the files that differ, up to the first that cannot be read. -/
def drifts (directory : String) :
    List Publication → m (Except TaskError (List (String × Drift)))
  | [] => return .ok []
  | p :: rest => do
    match ← driftOf directory p with
    | .error e => return .error e
    | .ok drift =>
      match ← drifts directory rest with
      | .error e => return .error e
      | .ok others =>
        match drift with
        | none => return .ok others
        | some d => return .ok ((p.fileName, d) :: others)

/-- The names of files under a heading; without any there is none. -/
def listed (heading : String) (names : List String) : List String :=
  if names.isEmpty then [] else heading :: names.map (s!"  - {·}")

/-- What is said about files that differ: first the missing ones. -/
def driftLines (found : List (String × Drift)) : List String :=
  let names (d : Drift) := (found.filter fun f => f.2 = d).map (·.1)
  listed "Missing schemas:" (names .missing) ++ listed "Schemas out of date:" (names .outOfDate) ++
    ["", "Run `cargo xtask emit-schemas` to regenerate."]

/-- Compares the published files with what would be written. Without a directory there is nothing
to compare. -/
def validateSchemas (directory : String) : m Exit := do
  if !(← Host.isDirectory directory) then
    return .success <| lines
      [s!"No schemas at {directory}; nothing to validate. " ++
        "Run `cargo xtask emit-schemas` to create them."]
  match ← drifts directory Publication.all with
  | .error e => return .failure "" "" e.chain
  | .ok [] => return .success (lines ["All schemas are up to date."])
  | .ok found => return .failure "" (lines (driftLines found)) (TaskError.chain .drift)

/-! ## Other tasks -/

/-- Asks that every known check has a complete explanation. -/
def explainCoverage : Exit :=
  match Explanation.gaps with
  | [] => .success (lines [s!"{Builtin.knownIds.length} check IDs have explanations"])
  | gaps => .failure "" (lines (gaps.map (s!"  - {·}"))) (TaskError.chain (.coverage gaps.length))

def help : String :=
  lines
    ["xtask commands:",
      "  help                    Show this message",
      "  emit-schemas [dir]      Generate JSON schemas from Rust types (default: schemas/)",
      "  validate-schemas [dir]  Check emitted schemas match generated output (for CI)",
      "  print-schema-ids        Print known schema IDs",
      "  explain-coverage        Validate all check IDs have explanations"]

/-- Under this name the environment holds the directory of the tasks, where the tool that builds
them runs them too. -/
def packageVariable : String := "CARGO_MANIFEST_DIR"

/-- The directory of the project from one inside: the one above that of the tasks. -/
def rootFrom (directory : String) : String :=
  if Path.lastName directory = "xtask" then (Path.parent? directory).getD directory else directory

/-- The directory of the project: from the one that the environment names, or else from where the
host stands. -/
def projectRoot : m (Except TaskError String) := do
  match ← Host.environment packageVariable with
  | some directory => return .ok (rootFrom directory)
  | none => return ((← Host.standing).mapError .nowhere).map rootFrom

/-- The directory of the schemas: the one given, or else the one in the project. -/
def schemasDirectory : Option String → m (Except TaskError String)
  | some directory => return .ok directory
  | none => return (← projectRoot).map (Path.join · "schemas")

/-- Runs a task on the directory of the schemas. -/
def onSchemas (task : String → m Exit) (given : Option String) : m Exit := do
  match ← schemasDirectory given with
  | .error e => return .failure "" "" e.chain
  | .ok directory => task directory

/-- Runs the task that the first word names, on the directory that the second may name. -/
def runWords (words : List String) : m Exit :=
  match words.headD "help" with
  | "help" | "--help" | "-h" => return ⟨0, "", help⟩
  | "emit-schemas" => onSchemas emitSchemas words[1]?
  | "validate-schemas" => onSchemas validateSchemas words[1]?
  | "explain-coverage" => return explainCoverage
  | "print-schema-ids" => return .success (lines (Publication.all.map (·.id)))
  | other => return .failure "" "" (TaskError.chain (.unknown other))

end Upkeep

end ResourceAudit
