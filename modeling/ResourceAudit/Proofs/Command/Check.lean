import ResourceAudit.Proofs.Audit.Verdict
import ResourceAudit.Proofs.Command.Steps
import ResourceAudit.Proofs.Report.RoundTrip

/-!
# What an audit leaves behind

The exit code of an audit agrees with the report on its disk (`check_agrees`). The steps of an audit
end in one of five ways (`AuditEnd`): the report that was made stands after the last two, and the
report of the error can be written after the others, over the one that was made if there is one.
-/

namespace ResourceAudit

namespace Command

variable {b : Build} {line : CommandLine} {o : CheckOptions} {w w' : World}

/-! ## Reports of audits -/

/-- The report of an audit of the texts in a world. -/
def Audited (b : Build) (line : CommandLine) (o : CheckOptions) (w : World) (r : Report) : Prop :=
  ∃ settings document done, settingsIn w line.settingsFile = .ok settings ∧
    w.files.read w.standing o.document = .ok document ∧
    audit b (auditRequest line o settings document (w.clock w.readings)) = .ok done ∧
    r = done.report.finish (w.clock (w.readings + 1))

theorem Audited.schema_eq {r : Report} (h : Audited b line o w r) : r.schema = Report.schemaId := by
  obtain ⟨_, _, _, _, _, haudit, rfl⟩ := h
  obtain ⟨_, _, _, _, _, hreport⟩ := audit_eq_ok haudit
  rw [hreport]
  rfl

theorem Audited.error_eq {r : Report} (h : Audited b line o w r) : r.scan.error = none := by
  obtain ⟨_, _, _, _, _, haudit, rfl⟩ := h
  obtain ⟨_, _, _, _, _, hreport⟩ := audit_eq_ok haudit
  rw [hreport]
  rfl

/-- The file under the path is a report that can be read. -/
def HoldsReport (w : World) (path : String) (r : Report) : Prop :=
  ∃ text, w.files.read w.standing path = .ok text ∧ Report.parse text = .ok r

theorem Holds.report {path : String} {p : Place} {r : Report} (h : Holds w path r.serialize p)
    (hschema : r.schema = Report.schemaId) : HoldsReport w path r :=
  ⟨r.serialize, h.read, Report.parse_serialize hschema⟩

/-! ## The steps of an audit -/

/-- How the steps of an audit end. -/
inductive AuditEnd (b : Build) (line : CommandLine) (o : CheckOptions) (w : World) :
    Except CommandError Report → World → Prop
  | stopped (e : CommandError) (n : Nat) : (∀ r, ¬ Audited b line o w r) →
      AuditEnd b line o w (.error e) (w.later n)
  | reportUnwritten {r : Report} {e : CommandError} {w' : World} :
      (writeTo .report o.reportFile r.serialize : Steps (StateM World) Unit).run.run (w.later 2) =
        (.error e, w') →
      AuditEnd b line o w (.error e) w'
  | markdownUnwritten {r : Report} {e : CommandError} {w₁ w' : World} :
      o.writesMarkdown = true →
      (writeTo .report o.reportFile r.serialize : Steps (StateM World) Unit).run.run (w.later 2) =
        (.ok (), w₁) →
      (writeTo .markdown o.markdownFile r.markdown : Steps (StateM World) Unit).run.run w₁ =
        (.error e, w') →
      AuditEnd b line o w (.error e) w'
  | plain {r : Report} {w' : World} : Audited b line o w r → o.writesMarkdown = false →
      (writeTo .report o.reportFile r.serialize : Steps (StateM World) Unit).run.run (w.later 2) =
        (.ok (), w') →
      AuditEnd b line o w (.ok r) w'
  | shown {r : Report} {w₁ w' : World} : Audited b line o w r → o.writesMarkdown = true →
      (writeTo .report o.reportFile r.serialize : Steps (StateM World) Unit).run.run (w.later 2) =
        (.ok (), w₁) →
      (writeTo .markdown o.markdownFile r.markdown : Steps (StateM World) Unit).run.run w₁ =
        (.ok (), w') →
      AuditEnd b line o w (.ok r) w'

theorem writing_ends {r : Report} (hmade : Audited b line o w r) :
    ∃ result w', (do
        writeTo .report o.reportFile r.serialize
        if o.writesMarkdown then writeTo .markdown o.markdownFile r.markdown
        return r : Steps (StateM World) Report).run.run (w.later 2) = (result, w') ∧
      AuditEnd b line o w result w' := by
  rcases hwrite : (writeTo .report o.reportFile r.serialize : Steps (StateM World) Unit).run.run
    (w.later 2) with ⟨e | _, w₁⟩
  · exact ⟨_, _, steps_bind_error hwrite, .reportUnwritten hwrite⟩
  · rw [steps_bind_ok hwrite]
    cases hasks : o.writesMarkdown with
    | false => exact ⟨_, _, rfl, .plain hmade hasks hwrite⟩
    | true =>
        simp only [if_true]
        rcases hmarkdown : (writeTo .markdown o.markdownFile r.markdown :
          Steps (StateM World) Unit).run.run w₁ with ⟨e | _, w₂⟩
        · exact ⟨_, _, steps_bind_error hmarkdown, .markdownUnwritten hasks hwrite hmarkdown⟩
        · exact ⟨_, _, steps_bind_ok hmarkdown, .shown hmade hasks hwrite hmarkdown⟩

theorem auditSteps_ends (b : Build) (line : CommandLine) (o : CheckOptions) (w : World) :
    ∃ result w', (auditSteps b line o : Steps (StateM World) Report).run.run w = (result, w') ∧
      AuditEnd b line o w result w' := by
  have hread := run_readSettings line.settingsFile w
  have hread' := run_readFrom .document o.document w
  unfold auditSteps
  cases hsettings : settingsIn w line.settingsFile with
  | error e =>
      rw [hsettings] at hread
      refine ⟨_, _, steps_bind_error hread, .stopped _ 0 ?_⟩
      rintro r ⟨_, _, _, hsettings', _⟩
      rw [hsettings] at hsettings'
      cases hsettings'
  | ok settings =>
      rw [hsettings] at hread
      rw [steps_bind_ok hread]
      cases hdocument : w.files.read w.standing o.document with
      | error e =>
          rw [hdocument] at hread'
          refine ⟨_, _, steps_bind_error hread', .stopped _ 0 ?_⟩
          rintro r ⟨_, _, _, _, hdocument', _⟩
          rw [hdocument] at hdocument'
          cases hdocument'
      | ok document =>
          rw [hdocument] at hread'
          rw [steps_bind_ok hread', steps_bind_ok (steps_lift (World.run_now w))]
          cases haudit : audit b (auditRequest line o settings document (w.clock w.readings)) with
          | error e =>
              refine ⟨_, _, rfl, .stopped _ 1 ?_⟩
              rintro r ⟨_, _, _, hsettings', hdocument', haudit', _⟩
              rw [hsettings] at hsettings'
              rw [hdocument] at hdocument'
              cases hsettings'
              cases hdocument'
              rw [haudit] at haudit'
              cases haudit'
          | ok done =>
              have hnow : (Host.now : StateM World _).run (w.later 1) =
                  (w.clock (w.readings + 1), w.later 2) := World.run_now _
              simp only [steps_bind_ok (steps_lift hnow)]
              exact writing_ends ⟨settings, document, done, hsettings, hdocument, haudit, rfl⟩

/-- The Markdown goes to another place than the report. -/
def WritesApart (o : CheckOptions) (standing : Place) : Prop :=
  o.writesMarkdown = true → ∀ p, FileTree.place? standing o.reportFile = some p →
    FileTree.place? standing o.markdownFile ≠ some p

theorem AuditEnd.holdsReport {r : Report} (h : AuditEnd b line o w (.ok r) w')
    (hapart : WritesApart o w.standing) :
    Audited b line o w r ∧ HoldsReport w' o.reportFile r := by
  cases h with
  | plain hmade _ hwrite =>
      obtain ⟨t, p, hput⟩ := writeTo_ok hwrite
      exact ⟨hmade, hput.holds.report hmade.schema_eq⟩
  | shown hmade hasks hwrite hmarkdown =>
      obtain ⟨t, p, hput⟩ := writeTo_ok hwrite
      obtain ⟨t', q, hput'⟩ := writeTo_ok hmarkdown
      have hq : FileTree.place? w.standing o.markdownFile = some q :=
        hput.standing_eq ▸ hput'.place?_eq
      have hne : p ≠ q := by
        rintro rfl
        exact hapart hasks p hput.place?_eq hq
      exact ⟨hmade, (hput.holds.put hput' hne).report hmade.schema_eq⟩

/-! ## The report of an error -/

/-- If a report could be written at first, one can be written after an error. -/
theorem AuditEnd.rewritable {e : CommandError} (h : AuditEnd b line o w (.error e) w')
    (htakes : Takes w o.reportFile) (text : String) :
    ∃ w'', (writeTo .report o.reportFile text : Steps (StateM World) Unit).run.run (w'.later 1) =
      (.ok (), w'') := by
  cases h with
  | stopped _ n _ => exact htakes.writeTo .report (n + 1) text
  | reportUnwritten hwrite =>
      obtain ⟨w'', hok⟩ := htakes.writeTo .report 2 _
      rw [hok] at hwrite
      cases hwrite
  | markdownUnwritten _ hwrite hmarkdown =>
      -- The report that was written stands, so it can be written over.
      obtain ⟨t, p, hput⟩ := writeTo_ok hwrite
      obtain ⟨t', rfl, hmade⟩ := writeTo_error hmarkdown
      exact ⟨_, ((hput.holds.furnished hmade).later 1).writeTo .report text⟩

/-- An audit that can be made ends with an error only where a file cannot be written. -/
theorem AuditEnd.writesMarkdown {e : CommandError} {r : Report}
    (h : AuditEnd b line o w (.error e) w') (hmade : Audited b line o w r)
    (htakes : Takes w o.reportFile) : o.writesMarkdown = true := by
  cases h with
  | stopped _ n hnone => exact absurd hmade (hnone r)
  | reportUnwritten hwrite =>
      obtain ⟨w'', hok⟩ := htakes.writeTo .report 2 _
      rw [hok] at hwrite
      cases hwrite
  | markdownUnwritten hasks _ _ => exact hasks

theorem run_leaveError (path message : String) (w : World) :
    (leaveError path message : StateM World Unit).run w =
      ((), ((writeTo .report path (Report.ofError message (w.clock w.readings)).serialize :
        Steps (StateM World) Unit).run.run (w.later 1)).2) := by
  rw [leaveError, World.run_bind (World.run_now w)]
  rfl

/-- The report of the error is there, or none can be written. -/
theorem leaveError_spec (path message : String) (w : World) :
    ∃ w', (leaveError path message : StateM World Unit).run w = ((), w') ∧
      ((∃ r, HoldsReport w' path r ∧ r.outcome = .fail ∧ r.findings = [] ∧
          r.scan.error = some message) ∨
        ¬ Takes w' path ∧ ∃ text e, (writeTo .report path text :
          Steps (StateM World) Unit).run.run (w.later 1) = (.error e, w')) := by
  refine ⟨_, run_leaveError path message w, ?_⟩
  rcases hwrite : (writeTo .report path (Report.ofError message (w.clock w.readings)).serialize :
    Steps (StateM World) Unit).run.run (w.later 1) with ⟨e | _, w'⟩
  · exact .inr ⟨not_takes_of_writeTo_error hwrite, _, e, hwrite⟩
  · obtain ⟨t, p, hput⟩ := writeTo_ok hwrite
    exact .inl ⟨_, hput.holds.report rfl, rfl, rfl, rfl⟩

/-! ## Exit code and report -/

/-- The exit code of an audit and the report that it left agree. -/
structure Agrees (b : Build) (line : CommandLine) (o : CheckOptions) (w w' : World)
    (exit : Exit) : Prop where
  code : exit.code = 0 ∨ exit.code = 1 ∨ exit.code = 2
  judged : exit.code ≠ 1 → ∃ r, Audited b line o w r ∧ HoldsReport w' o.reportFile r ∧
    r.scan.error = none ∧ r.outcome.exitCode = exit.code ∧ exit.output = r.digest
  -- The report could be written before the command, or can be after it.
  failed : exit.code = 1 → exit.output = "" ∧
    ∃ message, exit.errors = s!"iacguard error: {message}\n" ∧
      (Takes w o.reportFile ∨ Takes w' o.reportFile →
        ∃ r, HoldsReport w' o.reportFile r ∧ r.outcome = .fail ∧ r.findings = [] ∧
          r.scan.error = some message)
  finished : ∀ r, Audited b line o w r → Takes w o.reportFile → o.writesMarkdown = false →
    exit.code ≠ 1

theorem runCheck_agrees (b : Build) (line : CommandLine) {o : CheckOptions} {w : World}
    (hapart : WritesApart o w.standing) :
    ∃ exit w', (runCheck b line o : StateM World Exit).run w = (exit, w') ∧
      Agrees b line o w w' exit := by
  obtain ⟨result, w₁, hsteps, hend⟩ := auditSteps_ends b line o w
  rw [runCheck, World.run_bind hsteps]
  cases result with
  | ok r =>
      obtain ⟨hmade, hreport⟩ := hend.holdsReport hapart
      have hcode : r.outcome.exitCode ≠ 1 := by cases r.outcome <;> decide
      refine ⟨_, w₁, rfl, ?_, fun _ => ⟨r, hmade, hreport, hmade.error_eq, rfl, rfl⟩,
        fun hone => absurd hone hcode, fun _ _ _ _ => hcode⟩
      cases r.outcome with
      | pass => exact .inl rfl
      | fail => exact .inr (.inr rfl)
  | error e =>
      obtain ⟨w', hleave, hleft⟩ := leaveError_spec o.reportFile (causesInLine e.chain) w₁
      have hfailed : Takes w o.reportFile ∨ Takes w' o.reportFile →
          ∃ r, HoldsReport w' o.reportFile r ∧ r.outcome = .fail ∧ r.findings = [] ∧
            r.scan.error = some (causesInLine e.chain) := by
        rcases hleft with hreport | ⟨hstuck, text, e', hwrite⟩
        · exact fun _ => hreport
        · rintro (htakes | htakes)
          · obtain ⟨w'', hok⟩ := hend.rewritable htakes text
            rw [hok] at hwrite
            cases hwrite
          · exact absurd htakes hstuck
      refine ⟨_, w', World.run_bind hleave, .inr (.inl rfl), fun hcode => absurd rfl hcode,
        fun _ => ⟨rfl, causesInLine e.chain, rfl, hfailed⟩, fun r hmade htakes hplain => ?_⟩
      rw [hend.writesMarkdown hmade htakes] at hplain
      cases hplain

/-- For every command line that asks for an audit, and every world: the exit code is that of the
report that is left, and where an error is shown the report is that of the error. -/
theorem check_agrees {b : Build} {words : List String} {line : CommandLine} {o : CheckOptions}
    {w : World} (hwords : CommandLine.ofWords words = .ok line) (hcommand : line.command = .check o)
    (hapart : WritesApart o w.standing) :
    ∃ exit w', (runWords b words : StateM World Exit).run w = (exit, w') ∧
      Agrees b line o w w' exit := by
  have hrun : (runWords b words : StateM World Exit) = runCheck b line o := by
    rw [runWords, hwords]
    simp only [run, hcommand]
  rw [hrun]
  exact runCheck_agrees b line hapart

/-- A world with a document that passes, and a directory where the Markdown should go. -/
def obstructed : World where
  files := ⟨[(["work"], .directory), (["work", "main.json"], .file "\x7b\x7d"),
    (["work", "notes.md"], .directory)]⟩
  standing := ["work"]
  clock := fun _ => .epoch
  readings := 0

def obstructedWords : List String :=
  ["check", "--input", "main.json", "--report-out", "out/report.json", "--write-markdown",
    "--markdown-out=notes.md"]

def obstructedOptions : CheckOptions :=
  ⟨"main.json", "out/report.json", true, "notes.md", false⟩

theorem check_agrees_obstructed :
    ∃ exit w', (runWords .full obstructedWords : StateM World Exit).run obstructed = (exit, w') ∧
      exit.code = 1 ∧ ∃ r message, HoldsReport w' "out/report.json" r ∧ r.outcome = .fail ∧
        r.scan.error = some message ∧ exit.errors = s!"iacguard error: {message}\n" := by
  have hwords : CommandLine.ofWords obstructedWords =
      .ok ⟨"iacguard.toml", none, "warn", .check obstructedOptions⟩ := by decide +kernel
  have hapart : WritesApart obstructedOptions obstructed.standing := by
    rintro - p hp
    have hreport : FileTree.place? obstructed.standing obstructedOptions.reportFile =
        some ["work", "out", "report.json"] := by decide +kernel
    have hmarkdown : FileTree.place? obstructed.standing obstructedOptions.markdownFile =
        some ["work", "notes.md"] := by decide +kernel
    rw [hreport] at hp
    cases hp
    rw [hmarkdown]
    decide
  have hcode :
      ((runWords .full obstructedWords : StateM World Exit).run obstructed).1.code = 1 := by
    decide +kernel
  have htakes : Takes obstructed obstructedOptions.reportFile := by
    refine ⟨_, Prod.ext ?_ rfl⟩
    decide +kernel
  obtain ⟨exit, w', hrun, hagrees⟩ := check_agrees (b := .full) hwords rfl hapart
  rw [hrun] at hcode
  obtain ⟨-, message, herrors, hreport⟩ := hagrees.failed hcode
  obtain ⟨r, hholds, houtcome, -, herror⟩ := hreport (.inl htakes)
  exact ⟨exit, w', hrun, hcode, r, message, hholds, houtcome, herror, herrors⟩

end Command

end ResourceAudit
