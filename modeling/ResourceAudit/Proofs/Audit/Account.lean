import ResourceAudit.Proofs.Audit.Stages
import ResourceAudit.Proofs.Evaluation.Due
import ResourceAudit.Proofs.Finding.Tally
import Mathlib.Algebra.Order.BigOperators.Group.Finset

/-!
# The account of a report

Where the findings and the figures of a report come from (`Report.Accounts`): from the enabled
checks and the declarations of the document, whatever happened to the token. An audit whose token
nobody cancels leaves nothing out (`isPartial_of_uncancelled`).
-/

namespace ResourceAudit

/-! ## Reports of runs -/

/-- What a report says by the enabled checks and the declarations. -/
structure Report.Accounts (r : Report) (enabled : List Check) (ds : List Declaration) : Prop where
  findings : r.findings.Subperm (Finding.due enabled ds)
  sorted : r.findings.Pairwise Finding.Precedes
  whole : r.scan.isPartial = false → r.findings = Finding.sort (Finding.due enabled ds)
  counts : r.scan.counts = .ofList (r.findings.map (·.verdict))
  byCategory : r.scan.byCategory = r.findings.foldl CategoryTallies.record .empty
  resources : r.scan.resources = UInt32.ofNat (ds.map Declaration.key).toFinset.card
  resourceTypes : r.scan.resourceTypes = UInt32.ofNat (ds.map (·.type)).toFinset.card
  checks : r.scan.checks = UInt32.ofNat enabled.length
  outcome : r.outcome = .pass ↔
    r.scan.isPartial = false ∧ ∀ f ∈ r.findings, f.verdict ≠ .failed

theorem Report.Accounts.tallied {r : Report} {enabled : List Check} {ds : List Declaration}
    (h : r.Accounts enabled ds) (hfew : r.findings.length < 2 ^ 32) :
    Finding.Tallied r.findings r.scan.counts r.scan.byCategory := by
  rw [h.counts, h.byCategory]
  exact Finding.tallied hfew

/-- No check finds more than one thing on a pair. -/
theorem Report.Accounts.length_findings_le {r : Report} {enabled : List Check}
    {ds : List Declaration} (h : r.Accounts enabled ds) :
    r.findings.length ≤ (ds.map Declaration.key).toFinset.card * enabled.length := by
  refine h.findings.length_le.trans ?_
  rw [Finding.length_due]
  exact Finset.sum_le_card_nsmul _ _ _ fun key _ => List.countP_le_length

theorem Configuration.typeCount_ofDeclarations (ds : List Declaration) :
    (ofDeclarations ds).typeCount = (ds.map (·.type)).toFinset.card := by
  rw [← length_eraseDups, ← types_ofDeclarations, types, List.length_map]
  rfl

theorem Configuration.resourceCount_ofDeclarations (ds : List Declaration) :
    (ofDeclarations ds).resourceCount = (ds.map Declaration.key).toFinset.card := by
  rw [resourceCount, ofDeclarations, (resources_perm_ofList _).length_eq,
    Ledger.resources_ofDeclarations, List.length_map, length_eraseDups]

theorem Run.Covers.accounts {run : Run} {done : List Job} {registry : Registry}
    {ds : List Declaration} (h : run.Covers done (registry.jobs (.ofDeclarations ds)))
    (hids : (registry.checks.map (·.id)).Nodup) (p : Plan) (startedAt : Timestamp) :
    (run.summary.report p registry (.ofDeclarations ds) startedAt).Accounts registry.checks ds := by
  have hsubperm : run.findings.Subperm (Finding.due registry.checks ds) := h.subperm_due
  have hsubjects : (run.findings.map Finding.subject).Nodup :=
    Finding.nodup_subject_of_subperm_due hids hsubperm
  constructor
  case findings => exact (Finding.sort_perm run.findings).subperm.trans hsubperm
  case sorted => exact Finding.pairwise_precedes_sort hsubjects
  case whole =>
    intro hwhole
    exact Finding.sort_eq_of_perm (h.perm_due hwhole) (Finding.eq_of_order_eq_eq hsubjects)
  case counts => rfl
  case byCategory => rfl
  case resources => exact congrArg UInt32.ofNat (Configuration.resourceCount_ofDeclarations ds)
  case resourceTypes => exact congrArg UInt32.ofNat (Configuration.typeCount_ofDeclarations ds)
  case checks => rfl
  case outcome =>
    have houtcome := run.outcome_summary_eq_pass_iff
    simp only [← Run.mem_findings_summary] at houtcome
    exact houtcome

theorem accounts_of_audit_eq_ok {b : Build} {q : AuditRequest} {a : Audit}
    (h : audit b q = .ok a) :
    ∃ document, planOf b q.settings q.overrides = .ok a.plan ∧
      Json.readTree q.document = .ok document ∧
      a.report.Accounts (a.plan.enabledIn b) (occurrences document) := by
  obtain ⟨registry, document, hplan, hregistry, hdocument, hreport⟩ := audit_eq_ok h
  obtain ⟨done, hcovers⟩ := registry.run_covers (.ofDeclarations (occurrences document))
    ⟨a.plan.parallel, q.token⟩ q.around q.cancelled
  have hchecks := Plan.checks_of_registry_eq_ok hregistry
  refine ⟨document, hplan, hdocument, ?_⟩
  rw [hreport, ← hchecks]
  exact hcovers.accounts (hchecks ▸ a.plan.nodup_id_enabledIn b) _ _

theorem length_findings_le_of_audit_eq_ok {b : Build} {q : AuditRequest} {a : Audit}
    {document : Json} (h : audit b q = .ok a) (hdocument : Json.readTree q.document = .ok document) :
    a.report.findings.length ≤ (occurrences document).length * Builtin.checks.length := by
  obtain ⟨_, _, hread, haccounts⟩ := accounts_of_audit_eq_ok h
  obtain rfl := Except.ok.inj (hdocument.symm.trans hread)
  have hkeys := List.toFinset_card_le ((occurrences document).map Declaration.key)
  rw [List.length_map] at hkeys
  exact haccounts.length_findings_le.trans
    (Nat.mul_le_mul hkeys (a.plan.enabledIn_sublist b).length_le)

/-! ## Audits that nobody cancels -/

/-- Nobody cancels the token of an audit, and workers take up every job. -/
structure AuditRequest.Uncancelled (q : AuditRequest) : Prop where
  before : ∀ t ∈ q.token, t ∉ q.cancelled
  others : ∀ t ∈ q.token, ∀ place, t ∉ q.around.others place
  workers : ∀ t ∈ q.token, ∀ jobs, .cancel t ∉ q.around.schedule jobs
  reaches : ∀ jobs, q.around.Reaches jobs

theorem Surroundings.cancel_notMem_quiet (t : Token) (jobs : List Job) :
    .cancel t ∉ quiet.schedule jobs := by
  intro hmem
  obtain ⟨e, _, he⟩ := List.mem_flatMap.1 hmem
  simp at he

/-- In peace, an audit is not cancelled as long as its token was not cancelled before. -/
theorem AuditRequest.uncancelled_of_quiet {q : AuditRequest} (hquiet : q.around = .quiet)
    (hbefore : ∀ t ∈ q.token, t ∉ q.cancelled) : q.Uncancelled := by
  refine ⟨hbefore, ?_, ?_, ?_⟩ <;> rw [hquiet]
  · exact fun _ _ _ => List.not_mem_nil
  · exact fun t _ => Surroundings.cancel_notMem_quiet t
  · exact Surroundings.reaches_quiet

theorem AuditRequest.Uncancelled.undisturbed {q : AuditRequest} (hq : q.Uncancelled) {p : Plan}
    {b : Build} {registry : Registry} (hregistry : p.registry b = .ok registry)
    (ds : List Declaration) (parallel : Bool) :
    Undisturbed ⟨parallel, q.token⟩ q.around q.cancelled
      (registry.jobs (.ofDeclarations ds)) where
  before := hq.before
  checks := by
    intro t _ j hj
    obtain ⟨-, hchecks, -⟩ := Registry.checks_of_mem_jobs hj
    rw [Job.tripped, List.mem_flatMap]
    rintro ⟨check, hcheck, ht⟩
    rw [hchecks, Registry.mem_checksFor, Plan.checks_of_registry_eq_ok hregistry] at hcheck
    have htrips := Builtin.trips_eq_nil check (Plan.mem_checks_of_mem_enabledIn hcheck.1) j.resource
    rw [Check.tripped, htrips, ite_self] at ht
    cases ht
  others := hq.others
  workers t ht := hq.workers t ht _

theorem isPartial_of_uncancelled {b : Build} {q : AuditRequest} {a : Audit}
    (h : audit b q = .ok a) (hq : q.Uncancelled) : a.report.scan.isPartial = false := by
  obtain ⟨registry, document, _, hregistry, _, hreport⟩ := audit_eq_ok h
  have hpartial : a.report.scan.isPartial =
      (registry.run (.ofDeclarations (occurrences document)) ⟨a.plan.parallel, q.token⟩ q.around
        q.cancelled).1.isPartial := congrArg (fun report => report.scan.isPartial) hreport
  rw [hpartial, Registry.run_eq_of_undisturbed (hq.undisturbed hregistry _ _)
    fun _ => hq.reaches _]

end ResourceAudit
