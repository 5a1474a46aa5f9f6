import ResourceAudit.Decode
import ResourceAudit.Json.Reader
import ResourceAudit.Report

/-!
# Reading reports

A report is read back from its text. Members that no field knows do not count; a note, an error,
the categories and the flag of a partial scan may be left out.
-/

namespace ResourceAudit

/-! ## Records -/

namespace Decoder

def tool : Decoder Tool :=
  record "ToolMeta" [.of "name" string, .of "version" string] fun members => do
    return { name := ← required "name" string members
             version := ← required "version" string members }

def verdict : Decoder Verdict := tag Verdict.all Verdict.name

def category : Decoder Category := tag Category.all Category.tag

def outcome : Decoder Outcome := tag Outcome.all Outcome.name

def finding : Decoder Finding :=
  record "VerdictRecord"
    [.of "check_id" string, .of "check_name" string, .of "resource_type" string,
      .of "resource_identifier" string, .of "verdict" verdict,
      .of "category" category, .of "note" (optional string)]
    fun members => do
      return { checkId := ← required "check_id" string members
               checkName := ← required "check_name" string members
               resourceType := ← required "resource_type" string members
               resourceName := ← required "resource_identifier" string members
               verdict := ← required "verdict" verdict members
               category := ← required "category" category members
               note := ← defaulted "note" (optional string) none members }

def tally : Decoder Tally :=
  record "VerdictCounts" [.of "passed" word, .of "failed" word, .of "skipped" word]
    fun members => do
      return { passed := ← required "passed" word members
               failed := ← required "failed" word members
               skipped := ← required "skipped" word members }

def scan : Decoder Scan :=
  record "IacguardData"
    [.of "profile" string, .of "resource_types_scanned" word, .of "resources_scanned" word,
      .of "checks_registered" word, .of "counts" tally,
      .of "by_category" (dictionary tally), .of "cancelled" boolean,
      .of "runtime_error" (optional string)]
    fun members => do
      return { profile := ← required "profile" string members
               resourceTypes := ← required "resource_types_scanned" word members
               resources := ← required "resources_scanned" word members
               checks := ← required "checks_registered" word members
               counts := ← required "counts" tally members
               byCategory := ← defaulted "by_category" (dictionary tally) .empty members
               isPartial := ← defaulted "cancelled" boolean false members
               error := ← defaulted "runtime_error" (optional string) none members }

def report : Decoder Report :=
  record "ReportEnvelope"
    [.of "schema" string, .of "tool" tool, .of "started_at" timestamp,
      .of "finished_at" timestamp, .of "verdict" outcome,
      .of "records" (sequence finding), .of "data" scan]
    fun members => do
      return { schema := ← required "schema" string members
               tool := ← required "tool" tool members
               startedAt := ← required "started_at" timestamp members
               finishedAt := ← required "finished_at" timestamp members
               outcome := ← required "verdict" outcome members
               findings := ← required "records" (sequence finding) members
               scan := ← required "data" scan members }

end Decoder

/-! ## Texts -/

/-- Why a text is no report. -/
inductive ReportError where
  | unreadable (refusal : Json.Refusal)
  | schema (found : String)
  | undecodable (error : DecodeError)
deriving DecidableEq, Repr

/-- The chain of causes, the outermost first. -/
def ReportError.chain : ReportError → List String
  | unreadable refusal => ["parse report json", refusal.message]
  | schema found => [s!"unknown report schema: {found} (expected {Report.schemaId})"]
  | undecodable error => ["parse iacguard v1 report", error.message]

/-- The identifier of the layout that a document claims, if it claims one. -/
def claimedSchema (document : Json) : String :=
  match document.field? "schema" with
  | some (.string s) => s
  | _ => ""

/-- The report of a document. The claim of its layout is looked at first. -/
def Report.ofJson (document : Json) : Except ReportError Report :=
  if claimedSchema document = schemaId then (Decoder.report document).mapError .undecodable
  else .error (.schema (claimedSchema document))

def Report.parse (text : String) : Except ReportError Report :=
  match Json.readPlain text with
  | .error refusal => .error (.unreadable refusal)
  | .ok document => Report.ofJson document

end ResourceAudit
