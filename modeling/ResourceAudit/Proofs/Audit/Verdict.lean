import ResourceAudit.Proofs.Audit.Stages
import ResourceAudit.Proofs.Evaluation.Coverage
import ResourceAudit.Proofs.Evaluation.Findings

/-!
# The verdict of an audit

An audit passes exactly if it reached every declared resource that some enabled check supports,
and each of these checks accepts what is declared (`Audit.Judged`). The verdict goes back through
the summary to the jobs of the run, and from the jobs to the declarations of the document.
-/

namespace ResourceAudit

/-! ## Declarations that a check accepts -/

/-- The check passes or skips what is declared, and can read it. -/
def Check.Accepts (check : Check) (d : Declaration) : Prop :=
  ∃ attributes, Body.Reads d.body (.attributes attributes) ∧
    (check.predicate ⟨d.type, d.name, .attributes attributes⟩ = .verdict .passed ∨
      check.predicate ⟨d.type, d.name, .attributes attributes⟩ = .verdict .skipped)

theorem Ledger.body_resourceOf_eq_attributes_iff {ds : List Declaration} {d : Declaration}
    (hd : d ∈ ds) {attributes : Attributes} :
    (resourceOf ds d.key).body = .attributes attributes ↔
      (ds.map Declaration.key).count d.key = 1 ∧ Body.Reads d.body (.attributes attributes) := by
  rw [Configuration.body_resourceOf hd, Body.reads_iff]
  split
  · rename_i hsole
    simp [hsole]
  · rename_i hcount
    simp [hcount, Body.duplicate]

/-- A declared resource does not fail exactly if its only declaration is accepted. -/
theorem Check.judge_resourceOf_iff {ds : List Declaration} {d : Declaration} (hd : d ∈ ds)
    (check : Check) :
    (check.judge (Ledger.resourceOf ds d.key)).verdict ≠ .failed ↔
      (ds.map Declaration.key).count d.key = 1 ∧ check.Accepts d := by
  have hresource {attributes : Attributes}
      (hbody : (Ledger.resourceOf ds d.key).body = .attributes attributes) :
      Ledger.resourceOf ds d.key = ⟨d.type, d.name, .attributes attributes⟩ := by
    rw [← hbody]
    rfl
  rw [verdict_judge_ne_failed_iff]
  constructor
  · rintro ⟨attributes, hbody, hanswer⟩
    obtain ⟨hsole, hreads⟩ := (Ledger.body_resourceOf_eq_attributes_iff hd).1 hbody
    rw [hresource hbody] at hanswer
    exact ⟨hsole, attributes, hreads, hanswer⟩
  · rintro ⟨hsole, attributes, hreads, hanswer⟩
    have hbody := (Ledger.body_resourceOf_eq_attributes_iff hd).2 ⟨hsole, hreads⟩
    refine ⟨attributes, hbody, ?_⟩
    rwa [hresource hbody]

/-! ## Runs -/

namespace Run

variable {run : Run} {done : List Job} {r : Registry} {ds : List Declaration}

/-- The verdict on a run of whole jobs, read off the declarations. -/
theorem Covers.outcome_eq_pass_iff (h : run.Covers done (r.jobs (.ofDeclarations ds))) :
    run.summary.outcome = .pass ↔
      (∀ d ∈ ds, r.checksFor d.type ≠ [] → d.FoundIn run.findings) ∧
      ∀ check ∈ r.checks, ∀ d ∈ ds, check.info.supports d.type = true →
        (ds.map Declaration.key).count d.key = 1 ∧ check.Accepts d := by
  rw [outcome_summary_eq_pass_iff, h.not_partial_iff_found]
  apply and_congr_right
  intro hreached
  constructor
  · intro hfindings check hcheck d hd hsupports
    have hmem : check ∈ r.checksFor d.type := Registry.mem_checksFor.2 ⟨hcheck, hsupports⟩
    have hfound : d.FoundIn run.findings := hreached d hd (List.ne_nil_of_mem hmem)
    rw [← check.judge_resourceOf_iff hd]
    exact hfindings _ (h.judge_mem_findings hd hfound hmem)
  · intro haccepted f hf
    obtain ⟨j, hj, check, hcheck, rfl⟩ := h.mem_findings.1 hf
    obtain ⟨d, hd, _, rfl⟩ := Registry.mem_jobs_ofDeclarations.1 (h.sublist.subset hj)
    obtain ⟨hregistered, hsupports⟩ := Registry.mem_checksFor.1 hcheck
    exact (check.judge_resourceOf_iff hd).2 (haccepted check hregistered d hd hsupports)

end Run

/-! ## Verdicts -/

/-- How the report of an audit judges declarations by the checks that were enabled. -/
structure Audit.Judged (a : Audit) (checks : List Check) (ds : List Declaration) : Prop where
  pass : a.report.outcome = .pass ↔
    (∀ d ∈ ds, (∃ check ∈ checks, check.info.supports d.type = true) →
      d.FoundIn a.report.findings) ∧
    ∀ check ∈ checks, ∀ d ∈ ds, check.info.supports d.type = true →
      (ds.map Declaration.key).count d.key = 1 ∧ check.Accepts d
  -- A resource is judged by all its checks or by none.
  whole : ∀ d ∈ ds, d.FoundIn a.report.findings →
    ∀ check ∈ checks, check.info.supports d.type = true →
      ∃ f ∈ a.report.findings, f.checkId = check.id ∧ f.resourceType = d.type ∧
        f.resourceName = d.name
  isPartial : a.report.scan.isPartial = true ↔
    ∃ d ∈ ds, (∃ check ∈ checks, check.info.supports d.type = true) ∧
      ¬ d.FoundIn a.report.findings
  exitCode : (a.report.outcome = .pass ∧ a.report.outcome.exitCode = 0) ∨
    (a.report.outcome = .fail ∧ a.report.outcome.exitCode = 2)

/-- An audit that gives a report passes exactly if it left out no resource of its checks and each
is declared once, readable and accepted. -/
theorem judged_of_audit_eq_ok {b : Build} {q : AuditRequest} {a : Audit}
    (h : audit b q = .ok a) :
    ∃ document, planOf b q.settings q.overrides = .ok a.plan ∧
      Json.readTree q.document = .ok document ∧
      a.Judged (a.plan.enabledIn b) (occurrences document) := by
  obtain ⟨registry, document, hplan, hregistry, hdocument, hreport⟩ := audit_eq_ok h
  refine ⟨document, hplan, hdocument, ?_⟩
  generalize occurrences document = ds at hreport ⊢
  rw [← Plan.checks_of_registry_eq_ok hregistry]
  obtain ⟨done, hcovers⟩ := registry.run_covers (.ofDeclarations ds) ⟨a.plan.parallel, q.token⟩
    q.around q.cancelled
  generalize (registry.run (.ofDeclarations ds) ⟨a.plan.parallel, q.token⟩ q.around
    q.cancelled).1 = run at hreport hcovers
  have hfindings {f : Finding} : f ∈ a.report.findings ↔ f ∈ run.findings := by
    rw [hreport]
    exact Run.mem_findings_summary
  have hfound {d : Declaration} : d.FoundIn a.report.findings ↔ d.FoundIn run.findings := by
    simp only [Declaration.FoundIn, hfindings]
  have hsupported {type : String} : registry.checksFor type ≠ [] ↔
      ∃ check ∈ registry.checks, check.info.supports type = true := by
    simp [Registry.checksFor]
  have houtcome : a.report.outcome = run.summary.outcome := congrArg Report.outcome hreport
  have hpartial : a.report.scan.isPartial = run.isPartial :=
    congrArg (fun report => report.scan.isPartial) hreport
  constructor
  case pass =>
    simp only [houtcome, hcovers.outcome_eq_pass_iff, hfound, hsupported]
  case whole =>
    intro d hd hreached check hcheck hsupports
    have hjudged : check.judge (Ledger.resourceOf ds d.key) ∈ run.findings :=
      hcovers.judge_mem_findings hd (hfound.1 hreached)
        (Registry.mem_checksFor.2 ⟨hcheck, hsupports⟩)
    exact ⟨_, hfindings.2 hjudged, rfl, rfl, rfl⟩
  case isPartial =>
    rw [hpartial, ← Bool.not_eq_false, hcovers.not_partial_iff_found]
    simp only [hfound, hsupported, not_forall, exists_prop]
  case exitCode =>
    cases a.report.outcome with
    | pass => exact Or.inl ⟨rfl, rfl⟩
    | fail => exact Or.inr ⟨rfl, rfl⟩

/-- A described group inside the wrapper, next to a type that no check supports. -/
def describedGroup : AuditRequest where
  settings := ""
  document := Json.compact <| .object [("resource", .object [
    ("aws_vpc", .object [("main", .number (.int 7))]),
    ("aws_security_group", .list [.object [
      ("web", .list [.object [("description", .string "ssh")]])]])])]
  overrides := ⟨none, some true⟩
  token := some 1
  cancelled := [2]
  around := .quiet
  startedAt := .epoch

theorem judged_describedGroup :
    ∃ a document, audit .full describedGroup = .ok a ∧ a.report.outcome = .pass ∧
      Json.readTree describedGroup.document = .ok document ∧
      a.Judged (a.plan.enabledIn .full) (occurrences document) := by
  have hpass : (audit .full describedGroup).toOption.map (·.report.outcome) = some .pass := by
    decide +kernel
  cases haudit : audit .full describedGroup with
  | error e => simp [haudit, Except.toOption] at hpass
  | ok a =>
      obtain ⟨document, _, hdocument, hjudged⟩ := judged_of_audit_eq_ok haudit
      have houtcome : a.report.outcome = .pass := by simpa [haudit, Except.toOption] using hpass
      exact ⟨a, document, rfl, houtcome, hdocument, hjudged⟩

end ResourceAudit
