import ResourceAudit.Report

/-!
# Reports in Markdown

The verdict and the counts, the counts of each category, and a bullet for each finding that
failed.
-/

namespace ResourceAudit

namespace Report.Markdown

def verdictWord : Outcome → String
  | .pass => "PASS"
  | .fail => "FAIL"

def header (r : Report) : String :=
  let c := r.scan.counts
  "# Iacguard report\n\n" ++
  s!"- Verdict: **{verdictWord r.outcome}**\n" ++
  s!"- Checks: {c.passed} passed, {c.failed} failed, {c.skipped} skipped\n\n"

def partialNote (r : Report) : String :=
  if r.scan.isPartial then "> Note: evaluation was cancelled; results are partial.\n\n" else ""

def errorNote (r : Report) : String :=
  match r.scan.error with
  | some error => s!"> Error: {error}\n\n"
  | none => ""

def categoryRow (tag : String) (t : Tally) : String :=
  s!"| {tag} | {t.passed} | {t.failed} | {t.skipped} |\n"

/-- The table of categories; without any there is none. -/
def categoryTable (r : Report) : String :=
  if r.scan.byCategory.isEmpty then ""
  else
    "| Category | Passed | Failed | Skipped |\n|---|---|---|---|\n" ++
    String.join (r.scan.byCategory.entries.map fun (tag, t) => categoryRow tag t) ++ "\n"

/-- The bullet of a finding, and a line below it for its note. -/
def bullet (f : Finding) : String :=
  s!"- `{f.address}` `{f.checkId}`: {f.checkName}\n" ++
  match f.note with
  | some note => s!"  - note: {note}\n"
  | none => ""

def failures (r : Report) : String :=
  match r.findings.filter (·.isFailed) with
  | [] => "No failed checks.\n"
  | failed => "## Failed checks\n\n" ++ String.join (failed.map bullet)

end Report.Markdown

open Report.Markdown in
def Report.markdown (r : Report) : String :=
  header r ++ partialNote r ++ errorNote r ++ categoryTable r ++ failures r

end ResourceAudit
