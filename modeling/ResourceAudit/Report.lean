import ResourceAudit.Finding
import ResourceAudit.Json.Writer
import ResourceAudit.Timestamp

/-!
# Reports

A report is what an audit leaves behind: the verdict on the whole configuration, the findings it
rests on, and what was scanned. An audit that could not be run leaves a failing report with the
error.
-/

namespace ResourceAudit

/-! ## Reports -/

/-- The verdict on a whole configuration. -/
inductive Outcome where
  | pass
  | fail
deriving DecidableEq, Repr

namespace Outcome

def all : List Outcome := [pass, fail]

def name : Outcome → String
  | pass => "pass"
  | fail => "fail"

/-- The exit code of a program that ends with this verdict. -/
def exitCode : Outcome → Nat
  | pass => 0
  | fail => 2

end Outcome

/-- The program that wrote a report. -/
structure Tool where
  name : String
  version : String
deriving DecidableEq, Repr

def Tool.this : Tool := ⟨"iacguard", "0.1.0"⟩

/-- What was scanned, with which settings, and what came of it. -/
structure Scan where
  profile : String
  resourceTypes : UInt32
  resources : UInt32
  checks : UInt32
  counts : Tally
  byCategory : CategoryTallies
  isPartial : Bool
  error : Option String
deriving DecidableEq, Repr

structure Report where
  schema : String
  tool : Tool
  startedAt : Timestamp
  finishedAt : Timestamp
  outcome : Outcome
  findings : List Finding
  scan : Scan
deriving DecidableEq, Repr

namespace Report

def schemaId : String := "iacguard.report.v1"

/-- The report of an audit that could not be run or finished: failing, without findings. -/
def ofError (message : String) (now : Timestamp) : Report where
  schema := schemaId
  tool := .this
  startedAt := now
  finishedAt := now
  outcome := .fail
  findings := []
  scan :=
    { profile := "unknown"
      resourceTypes := 0
      resources := 0
      checks := 0
      counts := .zero
      byCategory := .empty
      isPartial := false
      error := some message }

end Report

/-! ## Encoding -/

namespace Json

def ofNat (n : Nat) : Json := number (.int n)

def ofWord (w : UInt32) : Json := ofNat w.toNat

end Json

def Tool.toJson (t : Tool) : Json :=
  .object [("name", .string t.name), ("version", .string t.version)]

def Finding.toJson (f : Finding) : Json :=
  .object <|
    [("check_id", .string f.checkId), ("check_name", .string f.checkName),
      ("resource_type", .string f.resourceType), ("resource_identifier", .string f.resourceName),
      ("verdict", .string f.verdict.name), ("category", .string f.category.tag)] ++
    Json.optionalMember "note" .string f.note

def Tally.toJson (t : Tally) : Json :=
  .object [("passed", .ofWord t.passed), ("failed", .ofWord t.failed),
    ("skipped", .ofWord t.skipped)]

def CategoryTallies.toJson (ts : CategoryTallies) : Json :=
  .object (ts.entries.map fun (tag, t) => (tag, t.toJson))

def Scan.toJson (s : Scan) : Json :=
  .object <|
    [("profile", .string s.profile), ("resource_types_scanned", .ofWord s.resourceTypes),
      ("resources_scanned", .ofWord s.resources), ("checks_registered", .ofWord s.checks),
      ("counts", s.counts.toJson), ("by_category", CategoryTallies.toJson s.byCategory)] ++
    (if s.isPartial then [("cancelled", .bool true)] else []) ++
    Json.optionalMember "runtime_error" .string s.error

def Report.toJson (r : Report) : Json :=
  .object [("schema", .string r.schema), ("tool", r.tool.toJson),
    ("started_at", .string r.startedAt.toText), ("finished_at", .string r.finishedAt.toText),
    ("verdict", .string r.outcome.name), ("records", .list (r.findings.map (·.toJson))),
    ("data", r.scan.toJson)]

def Report.serialize (r : Report) : String := r.toJson.pretty

end ResourceAudit
