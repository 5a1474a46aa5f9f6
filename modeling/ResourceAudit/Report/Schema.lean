import ResourceAudit.Report
import ResourceAudit.Schema

/-!
# The schema of reports
-/

namespace ResourceAudit

def Tool.layout : Schema :=
  .named "ToolMeta" <| .record
    [("name", .required, .string), ("version", .required, .string)]

def Outcome.layout : Schema := .named "OverallVerdict" <| .tags (Outcome.all.map (·.name))

def Verdict.layout : Schema :=
  .named "Verdict" <|
    .described
      ("Outcome of applying one check to one resource instance.\n\n" ++
        "`Skipped` is reserved for checks that match the resource type but do not apply to the\n" ++
        "resource's current state.")
      (.tags (Verdict.all.map (·.name)))

def Category.layout : Schema :=
  .named "CheckCategory" <|
    .described "Category tag attached to a check." (.tags (Category.all.map (·.tag)))

def Finding.layout : Schema :=
  .named "VerdictRecord" <|
    .described "One verdict for one (check, resource) pair. Never mutated after creation." <|
    .record
      [("check_id", .required, .string),
        ("check_name", .required, .string),
        ("resource_type", .required, .string),
        ("resource_identifier", .required,
          .described "Resource address within its type (`web` for `aws_instance.web`)." .string),
        ("verdict", .required, Verdict.layout),
        ("category", .required,
          .described "Primary category of the check that produced this record." Category.layout),
        ("note", .optional,
          .described "Diagnostic attached when the verdict was forced by a predicate fault."
            (.orNull .string))]

def Tally.layout : Schema :=
  .named "VerdictCounts" <| .record
    [("passed", .required, .word), ("failed", .required, .word), ("skipped", .required, .word)]

def Scan.layout : Schema :=
  .named "IacguardData" <|
    .described "Iacguard-specific summary payload for the report." <|
    .record
      [("profile", .required, .string),
        ("resource_types_scanned", .required, .word),
        ("resources_scanned", .required, .word),
        ("checks_registered", .required, .word),
        ("counts", .required, Tally.layout),
        ("by_category", .optional, .defaulting (.dictionary Tally.layout) (.object [])),
        ("cancelled", .optional,
          .described "Set when the run stopped early; records cover only the resources reached."
            .boolean),
        ("runtime_error", .optional,
          .described "Set when the run could not start (bad input, bad settings)."
            (.orNull .string))]

namespace Report

def layout : Schema :=
  .described
    ("A generic receipt/envelope.\n\n" ++
      "Keeping this generic allows tool-specific data while still enforcing a stable outer shape.") <|
  .record
    [("schema", .required,
        .described "Versioned schema identifier for the envelope shape." .string),
      ("tool", .required, Tool.layout),
      ("started_at", .required, .string),
      ("finished_at", .required, .string),
      ("verdict", .required, Outcome.layout),
      ("records", .required, .list Finding.layout),
      ("data", .required, Scan.layout)]

def schemaText : String := (layout.document "ReportEnvelope").pretty

end Report

end ResourceAudit
