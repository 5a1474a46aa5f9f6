import ResourceAudit.Proofs.Evaluation.Dispatch
import ResourceAudit.Proofs.Finding.Order
import ResourceAudit.Proofs.Registry.Index
import Mathlib.Data.List.Perm.Basic

/-!
# Rearrangement

The summary of an undisturbed run does not show in which order checks were registered and
resources came (`Registry.summary_eq_of_perm`). Both orders only rearrange the findings, and an id
names one check, so that findings with the same keys are the same.
-/

namespace ResourceAudit

namespace Registry

/-- The findings of all checks on all resources, whatever the order of the groups. -/
theorem findings_perm {r : Registry} {rs : List Resource} {o : RunOptions}
    {around : Surroundings} {cancelled : List Token}
    (h : Undisturbed o around cancelled (r.jobs (.ofList rs)))
    (hreaches : o.parallel = true → around.Reaches (r.jobs (.ofList rs))) :
    (r.run (.ofList rs) o around cancelled).1.findings.Perm
      (rs.flatMap fun x => (r.checksFor x.type).map fun check => check.judge x) := by
  rw [run_eq_of_undisturbed h hreaches]
  exact flatMap_findings_jobs_perm r rs

/-- Findings that the order does not tell apart are of one check, and so the same. -/
theorem eq_of_order_eq_eq {checks : List Check} (hids : (checks.map (·.id)).Nodup) {c c' : Check}
    (hc : c ∈ checks) (hc' : c' ∈ checks) {x x' : Resource}
    (h : Finding.order (c.judge x) (c'.judge x') = .eq) : c.judge x = c'.judge x' := by
  obtain ⟨htype, hname, hid, hverdict, hnote⟩ := Finding.order_eq_eq_iff.1 h
  obtain rfl : c = c' := List.inj_on_of_nodup_map hids hc hc' hid
  have hjudge (y : Resource) : c.judge y = ⟨c.info.id, c.info.name, y.type, y.name,
      (c.judge y).verdict, c.info.category, (c.judge y).note⟩ := rfl
  have htype' : x.type = x'.type := htype
  have hname' : x.name = x'.name := hname
  rw [hjudge x, hjudge x', htype', hname', hverdict, hnote]

/-- Checks that support some type and have ids of their own are accepted in any order, and
undisturbed runs have one summary for all orders of the checks and of the resources, in both
modes. -/
theorem summary_eq_of_perm {checks checks' : List Check} {rs rs' : List Resource}
    (hids : (checks.map (·.id)).Nodup)
    (htypes : ∀ check ∈ checks, check.info.resourceTypes ≠ [])
    (hchecks : checks.Perm checks') (hrs : rs.Perm rs') :
    ∃ r r', empty.registerAll checks = .ok r ∧ empty.registerAll checks' = .ok r' ∧
      ∀ s ∈ [r, r.freeze], ∀ s' ∈ [r', r'.freeze],
        ∀ (o o' : RunOptions) (around around' : Surroundings) (cancelled cancelled' : List Token),
          Undisturbed o around cancelled (s.jobs (.ofList rs)) →
          (o.parallel = true → around.Reaches (s.jobs (.ofList rs))) →
          Undisturbed o' around' cancelled' (s'.jobs (.ofList rs')) →
          (o'.parallel = true → around'.Reaches (s'.jobs (.ofList rs'))) →
          (s.run (.ofList rs) o around cancelled).1.summary =
            (s'.run (.ofList rs') o' around' cancelled').1.summary := by
  have hids' : (checks'.map (·.id)).Nodup := (hchecks.map _).nodup_iff.1 hids
  obtain ⟨r, hr, hall⟩ := indexed_empty.registerAll_eq_ok rfl hids htypes
  obtain ⟨r', hr', hall'⟩ := indexed_empty.registerAll_eq_ok rfl hids'
    fun check hcheck => htypes check (hchecks.mem_iff.2 hcheck)
  refine ⟨r, r', hr, hr', ?_⟩
  intro s hs s' hs' o o' around around' cancelled cancelled' h hreaches h' hreaches'
  have hsame : s.checks = checks := by
    rcases List.mem_pair.1 hs with rfl | rfl <;> exact hall
  have hsame' : s'.checks = checks' := by
    rcases List.mem_pair.1 hs' with rfl | rfl <;> exact hall'
  have hfindings := findings_perm h hreaches
  have hperm : (s.run (.ofList rs) o around cancelled).1.findings.Perm
      (s'.run (.ofList rs') o' around' cancelled').1.findings := by
    refine hfindings.trans (List.Perm.trans ?_ (findings_perm h' hreaches').symm)
    refine hrs.flatMap fun x _ => ?_
    rw [checksFor, checksFor, hsame, hsame']
    exact (hchecks.filter _).map _
  have hkeys : ∀ a ∈ (s.run (.ofList rs) o around cancelled).1.findings,
      ∀ b ∈ (s.run (.ofList rs) o around cancelled).1.findings,
        Finding.order a b = .eq → a = b := by
    intro a ha b hb heq
    have hjudged {f : Finding} (hf : f ∈ (s.run (.ofList rs) o around cancelled).1.findings) :
        ∃ c ∈ checks, ∃ x, c.judge x = f := by
      obtain ⟨x, _, hf⟩ := List.mem_flatMap.1 (hfindings.mem_iff.1 hf)
      obtain ⟨c, hc, rfl⟩ := List.mem_map.1 hf
      exact ⟨c, hsame ▸ (mem_checksFor.1 hc).1, x, rfl⟩
    obtain ⟨c, hc, x, rfl⟩ := hjudged ha
    obtain ⟨c', hc', x', rfl⟩ := hjudged hb
    exact eq_of_order_eq_eq hids hc hc' heq
  have hpartial : (s.run (.ofList rs) o around cancelled).1.isPartial =
      (s'.run (.ofList rs') o' around' cancelled').1.isPartial := by
    rw [run_eq_of_undisturbed h hreaches, run_eq_of_undisturbed h' hreaches']
  rw [Run.summary, Run.summary, hpartial,
    Summary.ofFindings_eq_of_sort_eq (Finding.sort_eq_of_perm hperm hkeys)]

/-- A name declared twice, once malformed, and a check that faults: registered and collected the
other way round, and left to workers. -/
theorem summary_eq_of_perm_reversed :
    let a : Check := .pure (.of "A" "a" [.iam] ["vm", "net"]) fun _ => .verdict .passed
    let b : Check := .pure (.of "B" "b" [] ["vm"]) fun _ => .fault (.attributeShape "k" "list")
    let rs : List Resource :=
      [⟨"vm", "web", .malformed "text"⟩, ⟨"net", "x", .attributes .empty⟩,
        ⟨"vm", "web", .attributes .empty⟩]
    ∃ r r', empty.registerAll [a, b] = .ok r ∧ empty.registerAll [b, a] = .ok r' ∧
      (r.run (.ofList rs) ⟨false, none⟩ .quiet []).1.summary =
        (r'.freeze.run (.ofList rs.reverse) ⟨true, none⟩ .quiet []).1.summary := by
  intro a b rs
  have hnone (o : RunOptions) (jobs : List Job) (h : o.token = none) :
      Undisturbed o .quiet [] jobs := by
    constructor <;> simp [h]
  have hids : ([a, b].map (·.id)).Nodup := by decide
  have htypes : ∀ check ∈ [a, b], check.info.resourceTypes ≠ [] := by decide
  have hchecks : [a, b].Perm [b, a] := .swap b a []
  obtain ⟨r, r', hr, hr', hsame⟩ :=
    summary_eq_of_perm hids htypes hchecks rs.reverse_perm.symm
  refine ⟨r, r', hr, hr', ?_⟩
  exact hsame r (by simp) r'.freeze (by simp) ⟨false, none⟩ ⟨true, none⟩ .quiet .quiet [] []
    (hnone _ _ rfl) (fun h => absurd h Bool.false_ne_true) (hnone _ _ rfl)
    (fun _ => Surroundings.reaches_quiet _)

end Registry

end ResourceAudit
