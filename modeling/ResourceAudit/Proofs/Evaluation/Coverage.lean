import ResourceAudit.Proofs.Configuration.Declarations
import ResourceAudit.Proofs.Evaluation.Jobs
import ResourceAudit.Proofs.Evaluation.Schedules
import Mathlib.Data.List.Perm.Subperm

/-!
# Coverage

Which declared resources a run reached shows in its findings: as no two jobs are about the same
pair and each has a check, a job was done exactly if some finding is about its pair.
-/

namespace ResourceAudit

/-! ## Jobs of declarations -/

namespace Registry

/-- The job of a declared pair. -/
def jobFor (r : Registry) (ds : List Declaration) (key : String × String) : Job :=
  ⟨Ledger.resourceOf ds key, r.checksFor key.1⟩

variable {r : Registry} {ds : List Declaration}

theorem mem_resources_of_mem_jobs {j : Job} (hj : j ∈ r.jobs (.ofDeclarations ds)) :
    j.resource ∈ (Configuration.ofDeclarations ds).resources := by
  have hmem : j.resource ∈ (r.jobs (.ofDeclarations ds)).map (·.resource) :=
    List.mem_map_of_mem hj
  rw [Configuration.ofDeclarations, map_resource_jobs] at hmem
  exact (List.mem_filter.1 hmem).1

/-- There is a job for every declared pair whose type some check supports, and no other. -/
theorem mem_jobs_ofDeclarations {j : Job} :
    j ∈ r.jobs (.ofDeclarations ds) ↔
      ∃ d ∈ ds, r.checksFor d.type ≠ [] ∧ r.jobFor ds d.key = j := by
  constructor
  · intro hj
    obtain ⟨key, hkey, hresource⟩ :=
      Configuration.mem_resources_ofDeclarations.1 (mem_resources_of_mem_jobs hj)
    obtain ⟨d, hd, rfl⟩ := List.mem_map.1 hkey
    obtain ⟨_, hchecks, hne⟩ := checks_of_mem_jobs hj
    rw [← hresource] at hchecks
    refine ⟨d, hd, fun hnil => hne (hchecks.trans hnil), ?_⟩
    obtain ⟨resource, checks⟩ := j
    rw [jobFor, hresource]
    exact congrArg _ hchecks.symm
  · rintro ⟨d, hd, hne, rfl⟩
    have hresource : Ledger.resourceOf ds d.key ∈ (Configuration.ofDeclarations ds).resources :=
      Configuration.mem_resources_ofDeclarations.2 ⟨d.key, List.mem_map_of_mem hd, rfl⟩
    have hmem : Ledger.resourceOf ds d.key ∈ (r.jobs (.ofDeclarations ds)).map (·.resource) := by
      rw [Configuration.ofDeclarations, map_resource_jobs, List.mem_filter]
      have htype : (Ledger.resourceOf ds d.key).type = d.type := rfl
      refine ⟨hresource, ?_⟩
      simpa [htype] using hne
    obtain ⟨j, hj, hresource⟩ := List.mem_map.1 hmem
    obtain ⟨_, hchecks, _⟩ := checks_of_mem_jobs hj
    have hjob : r.jobFor ds d.key = j := by
      obtain ⟨resource, checks⟩ := j
      subst hresource
      exact congrArg _ hchecks.symm
    rwa [hjob]

theorem nodup_key_jobs (r : Registry) (ds : List Declaration) :
    ((r.jobs (.ofDeclarations ds)).map (·.resource.key)).Nodup := by
  have hkeys : (r.jobs (.ofDeclarations ds)).map (·.resource.key) =
      ((r.jobs (.ofDeclarations ds)).map (·.resource)).map Resource.key := by
    rw [List.map_map]
    rfl
  rw [hkeys, Configuration.ofDeclarations, map_resource_jobs]
  exact (Configuration.nodup_key_ofDeclarations ds).sublist
    (List.filter_sublist.map Resource.key)

end Registry

/-! ## What the findings show -/

/-- Some finding is about the declared pair. -/
def Declaration.FoundIn (d : Declaration) (findings : List Finding) : Prop :=
  ∃ f ∈ findings, f.resourceType = d.type ∧ f.resourceName = d.name

namespace Run.Covers

variable {run : Run} {done jobs : List Job}

theorem mem_findings (h : run.Covers done jobs) {f : Finding} :
    f ∈ run.findings ↔ ∃ j ∈ done, ∃ check ∈ j.checks, check.judge j.resource = f := by
  simp only [h.findings, List.mem_flatMap, Job.findings, List.mem_map]

theorem not_partial_iff_forall (h : run.Covers done jobs)
    (hnodup : (jobs.map (·.resource.key)).Nodup) :
    run.isPartial = false ↔ ∀ j ∈ jobs, j ∈ done := by
  rw [h.not_partial_iff]
  constructor
  · rintro rfl
    exact fun j hj => hj
  · intro hall
    have hlen : jobs.length ≤ done.length := (hnodup.of_map.subperm hall).length_le
    exact h.sublist.eq_of_length_le hlen

variable {r : Registry} {ds : List Declaration}

/-- A job was done exactly if some finding is about its pair. -/
theorem mem_done_iff (h : run.Covers done (r.jobs (.ofDeclarations ds))) {d : Declaration}
    (hd : d ∈ ds) (hsupported : r.checksFor d.type ≠ []) :
    r.jobFor ds d.key ∈ done ↔ d.FoundIn run.findings := by
  have hjob : r.jobFor ds d.key ∈ r.jobs (.ofDeclarations ds) :=
    Registry.mem_jobs_ofDeclarations.2 ⟨d, hd, hsupported, rfl⟩
  constructor
  · intro hdone
    obtain ⟨check, hcheck⟩ := List.exists_mem_of_ne_nil _ hsupported
    exact ⟨check.judge (Ledger.resourceOf ds d.key),
      h.mem_findings.2 ⟨_, hdone, check, hcheck, rfl⟩, rfl, rfl⟩
  · rintro ⟨f, hf, htype, hname⟩
    obtain ⟨j, hj, check, hcheck, rfl⟩ := h.mem_findings.1 hf
    -- The finding is about the pair of its own job, so both jobs are the same.
    have hkey : j.resource.key = (r.jobFor ds d.key).resource.key := Prod.ext htype hname
    have hsame : j = r.jobFor ds d.key :=
      List.inj_on_of_nodup_map (Registry.nodup_key_jobs r ds) (h.sublist.subset hj) hjob hkey
    exact hsame ▸ hj

/-- A pair that is found at all is judged by every check of its type. -/
theorem judge_mem_findings (h : run.Covers done (r.jobs (.ofDeclarations ds))) {d : Declaration}
    (hd : d ∈ ds) (hfound : d.FoundIn run.findings) {check : Check}
    (hcheck : check ∈ r.checksFor d.type) :
    check.judge (Ledger.resourceOf ds d.key) ∈ run.findings := by
  have hdone : r.jobFor ds d.key ∈ done :=
    (h.mem_done_iff hd (List.ne_nil_of_mem hcheck)).2 hfound
  exact h.mem_findings.2 ⟨_, hdone, check, hcheck, rfl⟩

theorem not_partial_iff_found (h : run.Covers done (r.jobs (.ofDeclarations ds))) :
    run.isPartial = false ↔ ∀ d ∈ ds, r.checksFor d.type ≠ [] → d.FoundIn run.findings := by
  rw [h.not_partial_iff_forall (Registry.nodup_key_jobs r ds)]
  constructor
  · intro hall d hd hsupported
    rw [← h.mem_done_iff hd hsupported]
    exact hall _ (Registry.mem_jobs_ofDeclarations.2 ⟨d, hd, hsupported, rfl⟩)
  · intro hall j hj
    obtain ⟨d, hd, hsupported, rfl⟩ := Registry.mem_jobs_ofDeclarations.1 hj
    exact (h.mem_done_iff hd hsupported).2 (hall d hd hsupported)

end Run.Covers

end ResourceAudit
