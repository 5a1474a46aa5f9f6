import ResourceAudit.Evaluation
import ResourceAudit.Proofs.Configuration.Grouping

/-!
# The jobs of a configuration

A roster keeps the checks of a type once and gives every resource the place of its list. Looked
up again, the lists are those of the resources' own types: the jobs are one for each resource
whose type some check supports, in the order of the configuration (`jobs_eq_flatMap`).
-/

namespace ResourceAudit

/-! ## Rosters -/

namespace Roster

/-- Lists that are there already are found as before when another one is added. -/
theorem jobs_add (s : Roster) (checks : List Check) (resources : List Resource) :
    (s.add checks resources).jobs = s.jobs ++ resources.map (⟨·, checks⟩) := by
  unfold jobs add
  rw [List.pmap_append]
  congr 1
  · apply List.pmap_congr_left
    intro e he _ _
    have hlt := s.inRange e he
    simp only [List.getElem_append_left hlt]
  · rw [List.pmap_map]
    simp only [List.getElem_concat_length, List.pmap_eq_map]

end Roster

/-- The pairs of a job. -/
def Job.pairs (j : Job) : List (Resource × Check) :=
  j.checks.map fun check => (j.resource, check)

theorem Job.findings_eq_map_pairs (j : Job) :
    j.findings = j.pairs.map fun pair => pair.2.judge pair.1 := by
  rw [findings, pairs, List.map_map]
  rfl

namespace Registry

/-- The jobs of a group. -/
def jobsOf (r : Registry) (g : Group) : List Job :=
  if (r.checksFor g.type).isEmpty then [] else g.resources.map (⟨·, r.checksFor g.type⟩)

theorem jobs_enter (r : Registry) (s : Roster) (g : Group) :
    (Roster.enter r s g).jobs = s.jobs ++ r.jobsOf g := by
  unfold Roster.enter jobsOf
  split
  · rename_i hchecks
    simp [hchecks]
  · rename_i checks hchecks
    have hne : (r.checksFor g.type).isEmpty = false := by
      cases hcs : r.checksFor g.type with
      | nil => exact absurd hcs hchecks
      | cons _ _ => rfl
    rw [Roster.jobs_add, hne]
    rfl

theorem jobs_eq_flatMap (r : Registry) (c : Configuration) :
    r.jobs c = c.groups.flatMap r.jobsOf := by
  have hfold (groups : List Group) (s : Roster) :
      (groups.foldl (Roster.enter r) s).jobs = s.jobs ++ groups.flatMap r.jobsOf := by
    induction groups generalizing s with
    | nil => simp
    | cons g rest ih => rw [List.foldl_cons, ih, jobs_enter, List.flatMap_cons, List.append_assoc]
  rw [jobs, roster, hfold]
  rfl

/-! ## Resources and checks -/

theorem mem_checksFor {r : Registry} {type : String} {c : Check} :
    c ∈ r.checksFor type ↔ c ∈ r.checks ∧ c.info.supports type = true := by
  rw [checksFor, List.mem_filter]

/-- The pairs of a resource and a check that supports it, type by type, resource by resource,
check by check. -/
def pairings (r : Registry) (c : Configuration) : List (Resource × Check) :=
  c.types.flatMap fun type => (c.ofType type).flatMap fun resource =>
    (r.checksFor type).map fun check => (resource, check)

/-- The pairs of jobs are those of the configuration: no list stands beside a resource of another
type. -/
theorem flatMap_pairs_jobs (r : Registry) (rs : List Resource) :
    (r.jobs (.ofList rs)).flatMap Job.pairs = r.pairings (.ofList rs) := by
  have hgroup (type : String) :
      (r.jobsOf (Configuration.groupOf rs type)).flatMap Job.pairs =
        (rs.filter (·.type = type)).flatMap fun resource =>
          (r.checksFor type).map fun check => (resource, check) := by
    cases hchecks : r.checksFor type with
    | nil => simp [jobsOf, Configuration.groupOf, hchecks]
    | cons check rest =>
        simp only [jobsOf, Configuration.groupOf, hchecks, List.isEmpty_cons, Bool.false_eq_true,
          ↓reduceIte, List.flatMap_map, Job.pairs]
  rw [jobs_eq_flatMap, pairings, Configuration.groups_ofList, Configuration.types_ofList,
    List.flatMap_map, List.flatMap_assoc]
  simp only [hgroup, Configuration.ofType_ofList]

theorem flatMap_findings_jobs (r : Registry) (rs : List Resource) :
    (r.jobs (.ofList rs)).flatMap Job.findings =
      (r.pairings (.ofList rs)).map fun pair => pair.2.judge pair.1 := by
  have hjob : Job.findings = fun j => j.pairs.map fun pair => pair.2.judge pair.1 :=
    funext Job.findings_eq_map_pairs
  rw [← flatMap_pairs_jobs, List.map_flatMap, hjob]

/-- All jobs together find what all checks say on all resources, whatever the order of the
groups. -/
theorem flatMap_findings_jobs_perm (r : Registry) (rs : List Resource) :
    ((r.jobs (.ofList rs)).flatMap Job.findings).Perm
      (rs.flatMap fun x => (r.checksFor x.type).map fun check => check.judge x) := by
  have hpairings : (r.pairings (.ofList rs)).map (fun pair => pair.2.judge pair.1) =
      (Configuration.ofList rs).resources.flatMap fun x =>
        (r.checksFor x.type).map fun check => check.judge x := by
    rw [pairings, Configuration.resources_ofList, List.map_flatMap, List.flatMap_assoc]
    apply List.flatMap_congr
    intro type _
    rw [Configuration.ofType_ofList, List.map_flatMap]
    apply List.flatMap_congr
    intro x hx
    have htype : x.type = type := by simpa using (List.mem_filter.1 hx).2
    rw [List.map_map, htype]
    rfl
  rw [flatMap_findings_jobs, hpairings]
  exact (Configuration.resources_perm_ofList rs).flatMap_right _

/-- There is a job for every resource that some check supports. -/
theorem map_resource_jobs (r : Registry) (rs : List Resource) :
    (r.jobs (.ofList rs)).map (·.resource) =
      (Configuration.ofList rs).resources.filter fun x => !(r.checksFor x.type).isEmpty := by
  have hgroup (type : String) :
      (r.jobsOf (Configuration.groupOf rs type)).map (·.resource) =
        (rs.filter (·.type = type)).filter fun x => !(r.checksFor x.type).isEmpty := by
    have hsame : (rs.filter (·.type = type)).filter (fun x => !(r.checksFor x.type).isEmpty) =
        (rs.filter (·.type = type)).filter fun _ => !(r.checksFor type).isEmpty := by
      apply List.filter_congr
      intro x hx
      have htype : x.type = type := by simpa using (List.mem_filter.1 hx).2
      rw [htype]
    rw [hsame, jobsOf]
    by_cases hempty : (r.checksFor type).isEmpty = true
    · simp [Configuration.groupOf, hempty]
    · simp [Configuration.groupOf, hempty, Function.comp_def]
  rw [jobs_eq_flatMap, Configuration.resources, Configuration.groups_ofList, List.map_flatMap,
    List.flatMap_map, List.filter_flatMap, List.flatMap_map]
  simp only [hgroup]
  rfl

/-- A job brings the checks of its resource's type. -/
theorem checks_of_mem_jobs {r : Registry} {rs : List Resource} {j : Job}
    (hj : j ∈ r.jobs (.ofList rs)) :
    j.resource ∈ rs ∧ j.checks = r.checksFor j.resource.type ∧ j.checks ≠ [] := by
  rw [jobs_eq_flatMap, Configuration.groups_ofList, List.flatMap_map, List.mem_flatMap] at hj
  obtain ⟨type, _, hj⟩ := hj
  unfold jobsOf at hj
  split at hj
  · cases hj
  · rename_i hempty
    obtain ⟨x, hx, rfl⟩ := List.mem_map.1 hj
    obtain ⟨hmem, htype⟩ := List.mem_filter.1 hx
    have htype : x.type = type := by simpa using htype
    exact ⟨hmem, by rw [htype]; rfl, fun hnil => hempty (by simpa using hnil)⟩

end Registry

end ResourceAudit
