import ResourceAudit.Audit
import ResourceAudit.Proofs.Configuration.Declarations
import ResourceAudit.Proofs.Finding.Order
import ResourceAudit.Proofs.Registry.Index

/-!
# The stages of an audit

The checks of an audit are built-in ones that its build contains and its plan enables, so no
registry refuses them: with a plan, an audit reports unless its document is refused
(`audit_of_planOf_eq_ok`).
-/

namespace ResourceAudit

/-! ## Built-in checks -/

namespace Builtin

theorem nodup_id_checks : (checks.map (·.id)).Nodup := by decide

theorem resourceTypes_ne_nil : ∀ check ∈ checks, check.info.resourceTypes ≠ [] := by decide

theorem dot_notMem_supported :
    ∀ check ∈ checks, ∀ type ∈ check.info.resourceTypes, '.' ∉ type.toList := by decide

/-- No built-in check cancels anything. -/
theorem trips_eq_nil : ∀ check ∈ checks, ∀ r, check.trips r = [] := by
  simp [checks, instanceProfile, privateSubnet, groupDescription, Check.pure]

end Builtin

theorem Build.checks_sublist (b : Build) : b.checks.Sublist Builtin.checks := by
  have hswitch (q : Bool) (check : Check) : (if q then [check] else []).Sublist [check] := by
    cases q
    · exact List.nil_sublist _
    · exact List.Sublist.refl _
  exact ((hswitch _ _).append (hswitch _ _)).append (hswitch _ _)

/-! ## Enabled checks -/

namespace Plan

/-- The checks of a build that a plan enables. -/
def enabledIn (p : Plan) (b : Build) : List Check :=
  b.checks.filter fun check => p.isEnabled check.id

theorem enabledIn_sublist (p : Plan) (b : Build) : (p.enabledIn b).Sublist Builtin.checks :=
  List.filter_sublist.trans b.checks_sublist

theorem mem_checks_of_mem_enabledIn {p : Plan} {b : Build} {check : Check}
    (h : check ∈ p.enabledIn b) : check ∈ Builtin.checks :=
  (p.enabledIn_sublist b).subset h

theorem nodup_id_enabledIn (p : Plan) (b : Build) : ((p.enabledIn b).map (·.id)).Nodup :=
  Builtin.nodup_id_checks.sublist ((p.enabledIn_sublist b).map _)

theorem checks_of_registry_eq_ok {p : Plan} {b : Build} {r : Registry}
    (h : p.registry b = .ok r) : r.checks = p.enabledIn b := by
  obtain ⟨filled, hfilled, rfl⟩ := map_eq_ok.1 h
  exact Registry.checks_of_registerAll_eq_ok hfilled

theorem exists_registry_eq_ok (p : Plan) (b : Build) : ∃ r, p.registry b = .ok r := by
  obtain ⟨r, hr, -⟩ := Registry.indexed_empty.registerAll_eq_ok rfl (p.nodup_id_enabledIn b)
    fun check hcheck => Builtin.resourceTypes_ne_nil check (mem_checks_of_mem_enabledIn hcheck)
  exact ⟨r.freeze, map_eq_ok.2 ⟨r, hr, rfl⟩⟩

end Plan

/-- Elements of a part stand in the whole as they stand in the part. -/
theorem filter_mem_map_of_sublist {α β : Type} [DecidableEq β] {f : α → β} {part whole : List α}
    (hnodup : (whole.map f).Nodup) (h : part.Sublist whole) :
    whole.filter (fun x => f x ∈ part.map f) = part := by
  induction h with
  | slnil => rfl
  | @cons part rest x hpart ih =>
      obtain ⟨hx, hrest⟩ := List.nodup_cons.1 hnodup
      have hout : f x ∉ part.map f := fun hmem => hx ((hpart.map f).subset hmem)
      rw [List.filter_cons_of_neg (by simpa using hout), ih hrest]
  | @cons_cons part rest x hpart ih =>
      obtain ⟨hx, hrest⟩ := List.nodup_cons.1 hnodup
      have hsame : rest.filter (fun y => f y ∈ (x :: part).map f) =
          rest.filter fun y => f y ∈ part.map f := by
        apply List.filter_congr
        intro y hy
        have hne : f y ≠ f x := fun heq => hx (heq ▸ List.mem_map_of_mem hy)
        simp [hne]
      rw [List.filter_cons_of_pos (by simp), hsame, ih hrest]

/-- Whatever the builds and plans, checks enabled in both are the same and in the same order. -/
theorem Plan.enabledIn_eq_filter {p p' : Plan} {b b' : Build}
    (h : (p.enabledIn b).map (·.id) ⊆ (p'.enabledIn b').map (·.id)) :
    p.enabledIn b =
      (p'.enabledIn b').filter fun check => check.id ∈ (p.enabledIn b).map (·.id) := by
  -- Both are parts of the built-in checks, which are told apart by their ids.
  have hpart := filter_mem_map_of_sublist Builtin.nodup_id_checks (p.enabledIn_sublist b)
  have hwhole := filter_mem_map_of_sublist Builtin.nodup_id_checks (p'.enabledIn_sublist b')
  rw [← hwhole, List.filter_filter]
  refine hpart.symm.trans (List.filter_congr fun check _ => ?_)
  rw [Bool.eq_iff_iff, Bool.and_eq_true, decide_eq_true_eq, decide_eq_true_eq]
  exact ⟨fun hmem => ⟨hmem, h hmem⟩, And.left⟩

/-! ## Summaries -/

namespace Run

theorem mem_findings_summary {run : Run} {f : Finding} :
    f ∈ run.summary.findings ↔ f ∈ run.findings :=
  Finding.mem_sort

theorem outcome_summary_eq_pass_iff (run : Run) : run.summary.outcome = .pass ↔
    run.isPartial = false ∧ ∀ f ∈ run.findings, f.verdict ≠ .failed := by
  have hpassed : run.summary.passed = true ↔ ∀ f ∈ run.findings, f.verdict ≠ .failed := by
    simp only [Summary.passed_eq_true_iff, mem_findings_summary]
  have hpartial : run.summary.isPartial = run.isPartial := rfl
  rw [Summary.outcome, hpartial, ← hpassed]
  cases run.isPartial <;> cases run.summary.passed <;> simp

end Run

/-! ## Audits -/

/-- The run that a report of an audit sums up. -/
theorem run_of_audit_eq_ok {b : Build} {q : AuditRequest} {a : Audit} (h : audit b q = .ok a) :
    ∃ registry configuration, planOf b q.settings q.overrides = .ok a.plan ∧
      a.plan.registry b = .ok registry ∧ Configuration.parse q.document = .ok configuration ∧
      a.report = ((registry.run configuration ⟨a.plan.parallel, q.token⟩ q.around
        q.cancelled).1.summary.report a.plan registry configuration q.startedAt) := by
  unfold audit at h
  simp only [bind_eq_ok, mapError_eq_ok, pure_eq_ok] at h
  obtain ⟨plan, hplan, registry, hregistry, configuration, hconfiguration, rfl⟩ := h
  exact ⟨registry, configuration, hplan, hregistry, hconfiguration, rfl⟩

/-- What an audit went through if it gave a report. -/
theorem audit_eq_ok {b : Build} {q : AuditRequest} {a : Audit} (h : audit b q = .ok a) :
    ∃ registry document, planOf b q.settings q.overrides = .ok a.plan ∧
      a.plan.registry b = .ok registry ∧ Json.readTree q.document = .ok document ∧
      a.report = ((registry.run (.ofDeclarations (occurrences document))
        ⟨a.plan.parallel, q.token⟩ q.around q.cancelled).1.summary.report a.plan registry
          (.ofDeclarations (occurrences document)) q.startedAt) := by
  obtain ⟨registry, configuration, hplan, hregistry, hconfiguration, hreport⟩ :=
    run_of_audit_eq_ok h
  obtain ⟨document, hdocument, hdeclared⟩ := Configuration.parse_eq_ok hconfiguration
  obtain rfl := Configuration.ofJson_eq_ok hdeclared
  exact ⟨registry, document, hplan, hregistry, hdocument, hreport⟩

/-- With a plan, it is only the document that can keep an audit from reporting. -/
theorem audit_of_planOf_eq_ok {b : Build} {q : AuditRequest} {p : Plan}
    (h : planOf b q.settings q.overrides = .ok p) :
    (∀ e, Configuration.parse q.document = .error e → audit b q = .error (.document e)) ∧
      ∀ c, Configuration.parse q.document = .ok c → ∃ a, audit b q = .ok a ∧ a.plan = p := by
  obtain ⟨registry, hregistry⟩ := p.exists_registry_eq_ok b
  constructor
  · intro e hparse
    simp [audit, h, hregistry, hparse, bind, Except.bind, Except.mapError]
  · intro c hparse
    simp [audit, h, hregistry, hparse, bind, Except.bind, Except.mapError, pure, Except.pure]

end ResourceAudit
