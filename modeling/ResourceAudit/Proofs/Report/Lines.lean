import ResourceAudit.Proofs.Audit.Account
import ResourceAudit.Proofs.Text.Digits
import ResourceAudit.Proofs.Text.Lines
import ResourceAudit.Report.Digest
import ResourceAudit.Report.Markdown

/-!
# Reports line by line

A digest and the bullets of a Markdown report are put together from lines, one for each finding and
one for each note that is shown. They have exactly these lines if no text in them has a line break,
and one more for each break (`Report.lines_counted`). By a break, the name of a resource shows a
finding that was never made.
-/

namespace ResourceAudit

open Text

namespace Finding

variable {f g : Finding}

/-! ## Lines of a digest -/

def digestLine (f : Finding) : String :=
  s!"{Report.Digest.padRight 7 f.verdict.name} {f.checkId} {f.address}"

/-- The note that a digest shows, of a failed finding only. -/
def digestNote? (f : Finding) : Option String := if f.isFailed then f.note else none

/-- The line of a finding, and that of its note. -/
def digestLines (f : Finding) : List String :=
  f.digestLine :: f.digestNote?.toList.map ("        note: " ++ ·)

/-- The texts of a finding that a digest shows. -/
def digestTexts (f : Finding) : List String :=
  [f.checkId, f.resourceType, f.resourceName] ++ f.digestNote?.toList

theorem verdict_prefix_digestLine (f : Finding) :
    f.verdict.name.toList <+: f.digestLine.toList := by
  simp [digestLine, Report.Digest.padRight, toString]

theorem toList_noteLine (f : Finding) :
    (Report.Digest.noteLine f).toList =
      terminated (f.digestNote?.toList.map ("        note: " ++ ·)) := by
  unfold Report.Digest.noteLine digestNote? isFailed
  split
  · rename_i note hverdict hnote
    simp [hverdict, hnote, terminated, toString]
  · rename_i hnone
    cases hverdict : f.verdict with
    | passed | skipped => rfl
    | failed =>
        cases hnote : f.note with
        | none => rfl
        | some note => exact absurd hnote (hnone note hverdict)

theorem toList_findingLines (f : Finding) :
    (Report.Digest.findingLines f).toList = terminated f.digestLines := by
  rw [digestLines, terminated_cons, ← toList_noteLine]
  simp [Report.Digest.findingLines, digestLine, toString]

theorem length_digestLines (f : Finding) :
    f.digestLines.length = 1 + f.digestNote?.isSome.toNat := by
  rw [digestLines]
  cases f.digestNote? <;> rfl

theorem break_notMem_padRight (v : Verdict) :
    '\n' ∉ (Report.Digest.padRight 7 v.name).toList := by
  cases v <;> decide

theorem breaks_digestLines (f : Finding) : breaks f.digestLines = breaks f.digestTexts := by
  have hverdict := List.count_eq_zero.2 (break_notMem_padRight f.verdict)
  have hline : f.digestLine.toList.count '\n' =
      breaks [f.checkId, f.resourceType, f.resourceName] := by
    simp [digestLine, address, toString, hverdict, breaks]
  rw [digestLines, breaks_cons, hline, digestTexts, breaks_append]
  cases f.digestNote? with
  | none => rfl
  | some note => simp [breaks]

/-! ## Lines of a bullet -/

def bulletLine (f : Finding) : String := s!"- `{f.address}` `{f.checkId}`: {f.checkName}"

/-- The line of a failed finding, and that of its note. -/
def bulletLines (f : Finding) : List String := f.bulletLine :: f.note.toList.map ("  - note: " ++ ·)

/-- The texts of a finding that its bullet shows. -/
def bulletTexts (f : Finding) : List String :=
  [f.resourceType, f.resourceName, f.checkId, f.checkName] ++ f.note.toList

theorem toList_bullet (f : Finding) :
    (Report.Markdown.bullet f).toList = terminated f.bulletLines := by
  cases hnote : f.note <;>
    simp [Report.Markdown.bullet, bulletLines, bulletLine, hnote, terminated, toString]

theorem length_bulletLines (f : Finding) : f.bulletLines.length = 1 + f.note.isSome.toNat := by
  rw [bulletLines]
  cases f.note <;> rfl

theorem breaks_bulletLines (f : Finding) : breaks f.bulletLines = breaks f.bulletTexts := by
  have hline : f.bulletLine.toList.count '\n' =
      breaks [f.resourceType, f.resourceName, f.checkId, f.checkName] := by
    simp [bulletLine, address, toString, breaks]
  rw [bulletLines, breaks_cons, hline, bulletTexts, breaks_append]
  cases f.note with
  | none => rfl
  | some note => simp [breaks]

/-! ## Lines of many findings -/

/-- One line for each finding, and one more for each that has a note. -/
theorem length_flatMap_lines {lines : Finding → List String} {noted : Finding → Bool}
    (h : ∀ f, (lines f).length = 1 + (noted f).toNat) (fs : List Finding) :
    (fs.flatMap lines).length = fs.length + (fs.filter noted).length := by
  induction fs with
  | nil => rfl
  | cons f rest ih =>
      rw [List.flatMap_cons, List.length_append, ih, h, List.filter_cons, List.length_cons]
      cases noted f <;> simp <;> omega

/-! ## Findings that were never made -/

/-- The finding on a resource whose name goes on, behind a line break, like another finding. -/
def forging (f g : Finding) : Finding :=
  { f with resourceName := f.resourceName ++ "\n" ++ g.digestLine }

theorem digestLines_forging (hf : f.digestNote? = none) (hg : g.digestNote? = none) :
    terminated (f.forging g).digestLines = terminated f.digestLines ++ terminated g.digestLines := by
  have hforging : (f.forging g).digestNote? = none := hf
  rw [digestLines, digestLines, digestLines, hf, hg, hforging]
  simp [digestLine, forging, address, terminated, toString]

/-! ## Findings of audits -/

theorem break_notMem_checks : ∀ check ∈ Builtin.checks,
    ∀ text ∈ check.info.id :: check.info.name :: check.info.resourceTypes, '\n' ∉ text.toList := by
  decide

/-- What a built-in check says of itself, and the types that it is for, have no line break. -/
theorem break_notMem_of_mem_due {enabled : List Check} {ds : List Declaration}
    (henabled : ∀ check ∈ enabled, check ∈ Builtin.checks) (hf : f ∈ due enabled ds) :
    ∀ text ∈ [f.checkId, f.checkName, f.resourceType], '\n' ∉ text.toList := by
  obtain ⟨key, _, check, hcheck, hsupports, rfl⟩ := mem_due.1 hf
  have htype : key.1 ∈ check.info.resourceTypes := by simpa [CheckInfo.supports] using hsupports
  have hplain := break_notMem_checks check (henabled check hcheck)
  rw [List.forall_mem_cons, List.forall_mem_cons] at hplain
  obtain ⟨hid, hname, htypes⟩ := hplain
  simp only [List.forall_mem_cons, List.not_mem_nil, false_implies, implies_true, and_true]
  exact ⟨hid, hname, htypes _ htype⟩

end Finding

namespace Report

/-! ## Digests -/

def countsLine (r : Report) : String :=
  s!"Passed checks: {r.scan.counts.passed}, Failed checks: {r.scan.counts.failed}, " ++
    s!"Skipped checks: {r.scan.counts.skipped}"

/-- The lines that a digest is put together from: those of the findings, an empty one and the
counts. -/
def digestLines (r : Report) : List String :=
  r.findings.flatMap Finding.digestLines ++ ["", r.countsLine]

theorem toList_countsLine (r : Report) :
    (Digest.countsLine r.scan.counts).toList = terminated ["", r.countsLine] := by
  unfold Digest.countsLine countsLine
  generalize toString r.scan.counts.passed = passed
  generalize toString r.scan.counts.failed = failed
  generalize toString r.scan.counts.skipped = skipped
  simp [terminated, toString]

theorem toList_digest (r : Report) : r.digest.toList = terminated r.digestLines := by
  rw [digest, String.toList_append, toList_join_map Finding.toList_findingLines, toList_countsLine,
    digestLines, terminated_append]

theorem length_digestLines (r : Report) : r.digestLines.length =
    r.findings.length + (r.findings.filter (·.digestNote?.isSome)).length + 2 := by
  rw [digestLines, List.length_append, Finding.length_flatMap_lines Finding.length_digestLines]
  rfl

theorem break_notMem_word (n : UInt32) : '\n' ∉ (toString n).toList := by
  change '\n' ∉ (Nat.repr n.toNat).toList
  rw [Nat.repr, String.toList_ofList]
  exact fun h => absurd (isDigit_of_mem_toDigits h) (by decide)

theorem break_notMem_countsLine (r : Report) : '\n' ∉ r.countsLine.toList := by
  have hpassed := break_notMem_word r.scan.counts.passed
  have hfailed := break_notMem_word r.scan.counts.failed
  have hskipped := break_notMem_word r.scan.counts.skipped
  unfold countsLine
  generalize toString r.scan.counts.passed = passed at hpassed ⊢
  generalize toString r.scan.counts.failed = failed at hfailed ⊢
  generalize toString r.scan.counts.skipped = skipped at hskipped ⊢
  simp [toString, hpassed, hfailed, hskipped]

theorem breaks_digestLines (r : Report) :
    breaks r.digestLines = breaks (r.findings.flatMap Finding.digestTexts) := by
  have hcounts : breaks ["", r.countsLine] = 0 :=
    breaks_eq_zero_iff.2 (by simp [break_notMem_countsLine])
  rw [digestLines, breaks_append, hcounts, breaks_flatMap_congr Finding.breaks_digestLines]
  rfl

/-! ## Markdown -/

def failed (r : Report) : List Finding := r.findings.filter (·.isFailed)

/-- What stands in front of the failures of a Markdown report. -/
def markdownHead (r : Report) : String :=
  Markdown.header r ++ Markdown.partialNote r ++ Markdown.errorNote r ++ Markdown.categoryTable r

/-- The bullets of a Markdown report. -/
def bullets (r : Report) : String := String.join (r.failed.map Markdown.bullet)

/-- The lines that the bullets are put together from. -/
def bulletLines (r : Report) : List String := r.failed.flatMap Finding.bulletLines

theorem toList_bullets (r : Report) : r.bullets.toList = terminated r.bulletLines :=
  toList_join_map Finding.toList_bullet r.failed

theorem length_bulletLines (r : Report) :
    r.bulletLines.length = r.failed.length + (r.failed.filter (·.note.isSome)).length :=
  Finding.length_flatMap_lines Finding.length_bulletLines r.failed

theorem breaks_bulletLines (r : Report) :
    breaks r.bulletLines = breaks (r.failed.flatMap Finding.bulletTexts) :=
  breaks_flatMap_congr Finding.breaks_bulletLines r.failed

theorem markdown_eq (r : Report) :
    r.markdown = r.markdownHead ++
      if r.failed = [] then "No failed checks.\n" else "## Failed checks\n\n" ++ r.bullets := by
  rw [markdown, markdownHead, Markdown.failures, bullets, failed]
  split
  · rename_i hnone
    rw [if_pos hnone]
  · rename_i hsome
    rw [if_neg hsome]

/-! ## Reports -/

/-- The lines of what is shown of a report. -/
structure LinesCounted (r : Report) : Prop where
  digest : lines r.digest.toList = r.digestLines.map String.toList ↔
    ∀ f ∈ r.findings, ∀ text ∈ f.digestTexts, '\n' ∉ text.toList
  digest_length : (lines r.digest.toList).length =
    r.findings.length + (r.findings.filter (·.digestNote?.isSome)).length + 2 +
      breaks (r.findings.flatMap Finding.digestTexts)
  verdicts : ∀ f ∈ r.findings, f.verdict.name.toList <+: f.digestLine.toList
  markdown : r.markdown = r.markdownHead ++
    if r.failed = [] then "No failed checks.\n" else "## Failed checks\n\n" ++ r.bullets
  bullets : lines r.bullets.toList = r.bulletLines.map String.toList ↔
    ∀ f ∈ r.failed, ∀ text ∈ f.bulletTexts, '\n' ∉ text.toList
  bullets_length : (lines r.bullets.toList).length =
    r.failed.length + (r.failed.filter (·.note.isSome)).length +
      breaks (r.failed.flatMap Finding.bulletTexts)
  forged : ∀ before f g after, f.digestNote? = none → g.digestNote? = none →
    { r with findings := before ++ f.forging g :: after }.digest =
      { r with findings := before ++ f :: g :: after }.digest
  -- Audits leave it to the names of resources, and to notes.
  audited : ∀ {b q a}, audit b q = .ok a → a.report = r →
    ∀ f ∈ r.findings, ∀ text ∈ [f.checkId, f.checkName, f.resourceType], '\n' ∉ text.toList

theorem digest_forging (r : Report) (before : List Finding) {f g : Finding} (after : List Finding)
    (hf : f.digestNote? = none) (hg : g.digestNote? = none) :
    { r with findings := before ++ f.forging g :: after }.digest =
      { r with findings := before ++ f :: g :: after }.digest := by
  rw [← String.toList_inj, toList_digest, toList_digest, digestLines, digestLines]
  simp only [List.flatMap_append, List.flatMap_cons, terminated_append,
    Finding.digestLines_forging hf hg, List.append_assoc]
  rfl

theorem break_notMem_of_audit_eq_ok {b : Build} {q : AuditRequest} {a : Audit}
    (h : audit b q = .ok a) : ∀ f ∈ a.report.findings,
      ∀ text ∈ [f.checkId, f.checkName, f.resourceType], '\n' ∉ text.toList := by
  obtain ⟨document, _, _, haccounts⟩ := accounts_of_audit_eq_ok h
  intro f hf
  exact Finding.break_notMem_of_mem_due (fun _ => Plan.mem_checks_of_mem_enabledIn)
    (haccounts.findings.subset hf)

/-- Every report is shown in the lines of its findings and of their notes, and one more for each
line break in what is shown of them. -/
theorem lines_counted (r : Report) : r.LinesCounted where
  digest := by
    rw [toList_digest, lines_terminated_iff, breaks_digestLines, breaks_flatMap_eq_zero_iff]
  digest_length := by
    rw [toList_digest, length_lines_terminated, breaks_digestLines, length_digestLines]
  verdicts := fun f _ => f.verdict_prefix_digestLine
  markdown := r.markdown_eq
  bullets := by
    rw [toList_bullets, lines_terminated_iff, breaks_bulletLines, breaks_flatMap_eq_zero_iff]
  bullets_length := by
    rw [toList_bullets, length_lines_terminated, breaks_bulletLines, length_bulletLines]
  forged := fun before _ _ after => r.digest_forging before after
  audited := by
    rintro b q a haudit rfl
    exact break_notMem_of_audit_eq_ok haudit

/-- A group without a description, under a name that goes on like the line of one that passes. -/
def forgedName : AuditRequest where
  settings := ""
  document := Json.compact <| .object [("aws_security_group", .object
    [("web\nPASSED  CUSTOM_AWS_3 aws_security_group.db", .object [])])]
  overrides := ⟨none, none⟩
  token := none
  cancelled := []
  around := .quiet
  startedAt := .epoch

theorem lines_counted_forgedName :
    ∃ a, audit .full forgedName = .ok a ∧ a.report.findings.length = 1 ∧
      (lines a.report.digest.toList).length = 4 ∧ (lines a.report.bullets.toList).length = 2 := by
  have hfindings : (audit .full forgedName).toOption.map (·.report.findings) =
      some [⟨"CUSTOM_AWS_3", "Ensure every security group has a description",
        "aws_security_group", "web\nPASSED  CUSTOM_AWS_3 aws_security_group.db", .failed,
        .networking, none⟩] := by
    decide +kernel
  cases haudit : audit .full forgedName with
  | error e => simp [haudit, Except.toOption] at hfindings
  | ok a =>
      simp only [haudit, Except.toOption, Option.map_some, Option.some.injEq] at hfindings
      have hlines := lines_counted a.report
      refine ⟨a, rfl, by rw [hfindings]; rfl, ?_, ?_⟩
      · rw [hlines.digest_length, hfindings]
        decide
      · rw [hlines.bullets_length, failed, hfindings]
        decide

end Report

end ResourceAudit
