import ResourceAudit.Configuration.Document
import ResourceAudit.Evaluation
import ResourceAudit.Report
import ResourceAudit.Settings.Decode

/-!
# Audits

An audit reads settings and a configuration, runs the checks that the settings enable, and
reports. It passes if no finding failed and every resource was reached. What goes wrong first
counts: the settings, then the registry, then the configuration.
-/

namespace ResourceAudit

/-! ## Errors -/

/-- Why an audit gave no report. -/
inductive AuditError where
  | settingsText (error : Settings.TextError)
  | settings (error : SettingsError)
  | registry (error : RegistryError)
  | document (error : DocumentError)
deriving DecidableEq, Repr

def Settings.TextError.message : Settings.TextError → String
  | malformed => "TOML parse error"
  | wrongType error => error.message

/-- The chain of causes, the outermost first. -/
def AuditError.chain : AuditError → List String
  | settingsText error => ["parse config", error.message]
  | settings error => ["resolve config", error.message]
  | registry error => ["build check registry", error.message]
  | document error => "parse input configuration" :: error.chain

/-! ## Settings -/

def planOf (b : Build) (settings : String) (o : Overrides) : Except AuditError Plan :=
  match Settings.parseFile settings with
  | .error e => .error (.settingsText e)
  | .ok s => (s.resolve b o).mapError .settings

/-! ## Listing checks -/

/-- A check of a build, and whether a plan enables it. -/
structure ListedCheck where
  info : CheckInfo
  isEnabled : Bool
deriving DecidableEq, Repr

/-- The checks of a build under the text of a settings file. -/
def listChecks (b : Build) (settings : String) (o : Overrides) :
    Except AuditError (List ListedCheck) :=
  (planOf b settings o).map fun p => b.checks.map fun c => ⟨c.info, p.isEnabled c.id⟩

/-! ## Running checks -/

/-- What an audit works on, and what goes on around it. -/
structure AuditRequest where
  settings : String
  document : String
  overrides : Overrides
  token : Option Token
  cancelled : List Token
  around : Surroundings
  startedAt : Timestamp

/-- A report, and the plan that led to it. -/
structure Audit where
  report : Report
  plan : Plan
deriving DecidableEq, Repr

/-- The verdict on a configuration: a partial summary cannot pass. -/
def Summary.outcome (s : Summary) : Outcome :=
  if s.passed && !s.isPartial then .pass else .fail

/-- The report of a summary, as of the time when the audit started. -/
def Summary.report (s : Summary) (p : Plan) (r : Registry) (c : Configuration)
    (startedAt : Timestamp) : Report where
  schema := Report.schemaId
  tool := .this
  startedAt := startedAt
  finishedAt := startedAt
  outcome := s.outcome
  findings := s.findings
  scan :=
    { profile := p.profile
      resourceTypes := UInt32.ofNat c.typeCount
      resources := UInt32.ofNat c.resourceCount
      checks := UInt32.ofNat r.size
      counts := s.counts
      byCategory := s.byCategory
      isPartial := s.isPartial
      error := none }

def Report.finish (r : Report) (time : Timestamp) : Report := { r with finishedAt := time }

def audit (b : Build) (q : AuditRequest) : Except AuditError Audit := do
  let plan ← planOf b q.settings q.overrides
  let registry ← (plan.registry b).mapError .registry
  let configuration ← (Configuration.parse q.document).mapError .document
  let options : RunOptions := ⟨plan.parallel, q.token⟩
  let (run, _) := registry.run configuration options q.around q.cancelled
  return ⟨run.summary.report plan registry configuration q.startedAt, plan⟩

end ResourceAudit
