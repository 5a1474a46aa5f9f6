import ResourceAudit.Report

/-!
# Reports in plain lines

A line for each finding, with the note of a failed one below it, and the counts at the end.
-/

namespace ResourceAudit

namespace Report.Digest

def padRight (width : Nat) (s : String) : String :=
  s ++ String.ofList (List.replicate (width - s.length) ' ')

def noteLine (f : Finding) : String :=
  match f.verdict, f.note with
  | .failed, some note => s!"        note: {note}\n"
  | _, _ => ""

def findingLines (f : Finding) : String :=
  s!"{padRight 7 f.verdict.name} {f.checkId} {f.address}\n" ++ noteLine f

def countsLine (t : Tally) : String :=
  s!"\nPassed checks: {t.passed}, Failed checks: {t.failed}, Skipped checks: {t.skipped}\n"

end Report.Digest

open Report.Digest in
def Report.digest (r : Report) : String :=
  String.join (r.findings.map findingLines) ++ countsLine r.scan.counts

end ResourceAudit
