import ResourceAudit.Proofs.Evaluation.Findings
import ResourceAudit.Proofs.Evaluation.Jobs
import ResourceAudit.Proofs.Evaluation.Schedules
import ResourceAudit.Proofs.Registry.Calls

/-!
# Dispatch

A run that nobody disturbs brings one finding for each pair of a resource and a check that
supports it, in the order of the configuration and of the registrations, whatever other predicates
do.
-/

namespace ResourceAudit

/-! ## Runs -/

/-- A run with a finding for every pair, and nothing else. -/
structure Run.Dispatches (run : Run) (r : Registry) (c : Configuration) : Prop where
  findings : List.Forall₂ (fun pair f => Finding.Reports f pair.1 pair.2) (r.pairings c)
    run.findings
  evaluated : run.evaluated = c.resources.countP fun x => !(r.checksFor x.type).isEmpty
  complete : run.isPartial = false

/-- The check with another predicate, if it has the id. -/
def Check.replaced (id : String) (predicate : Resource → Answer) (trips : Resource → List Token)
    (check : Check) : Check :=
  if check.id = id then ⟨check.info, predicate, trips⟩ else check

theorem Check.info_replaced (id : String) (predicate : Resource → Answer)
    (trips : Resource → List Token) (check : Check) :
    (check.replaced id predicate trips).info = check.info := by
  unfold replaced
  split <;> rfl

namespace Registry

theorem findings_of_undisturbed {r : Registry} {rs : List Resource} {o : RunOptions}
    {around : Surroundings} {cancelled : List Token}
    (h : Undisturbed o around cancelled (r.jobs (.ofList rs)))
    (hreaches : o.parallel = true → around.Reaches (r.jobs (.ofList rs))) :
    (r.run (.ofList rs) o around cancelled).1.findings =
      (r.pairings (.ofList rs)).map fun pair => pair.2.judge pair.1 := by
  rw [run_eq_of_undisturbed h hreaches, flatMap_findings_jobs]

theorem dispatches_of_undisturbed {r : Registry} {rs : List Resource} {o : RunOptions}
    {around : Surroundings} {cancelled : List Token}
    (h : Undisturbed o around cancelled (r.jobs (.ofList rs)))
    (hreaches : o.parallel = true → around.Reaches (r.jobs (.ofList rs))) :
    (r.run (.ofList rs) o around cancelled).1.Dispatches r (.ofList rs) where
  findings := by
    rw [findings_of_undisturbed h hreaches, List.forall₂_map_right_iff, List.forall₂_same]
    exact fun pair _ => pair.2.judge_reports pair.1
  evaluated := by
    rw [run_eq_of_undisturbed h hreaches, List.countP_eq_length_filter, ← map_resource_jobs,
      List.length_map]
  complete := by rw [run_eq_of_undisturbed h hreaches]

theorem pairings_mapChecks {f : Check → Check} (hinfo : ∀ c, (f c).info = c.info) (r : Registry)
    (c : Configuration) :
    (r.mapChecks f).pairings c = (r.pairings c).map fun pair => (pair.1, f pair.2) := by
  simp only [pairings, checksFor_mapChecks hinfo, List.map_flatMap, List.map_map]
  rfl

/-- Findings of the other checks do not see what a predicate does. -/
theorem filter_judge_replaced (id : String) (predicate : Resource → Answer)
    (trips : Resource → List Token) (pairs : List (Resource × Check)) :
    (pairs.map fun pair => (pair.2.replaced id predicate trips).judge pair.1).filter
        (·.checkId ≠ id) =
      (pairs.map fun pair => pair.2.judge pair.1).filter (·.checkId ≠ id) := by
  induction pairs with
  | nil => rfl
  | cons pair rest ih =>
      have hid : ((pair.2.replaced id predicate trips).judge pair.1).checkId = pair.2.id :=
        congrArg CheckInfo.id (pair.2.info_replaced id predicate trips)
      rw [List.map_cons, List.map_cons, List.filter_cons, List.filter_cons, ih, hid]
      by_cases hsame : pair.2.id = id
      · have hid' : (pair.2.judge pair.1).checkId = id := hsame
        simp [hsame, hid']
      · have hcheck : pair.2.replaced id predicate trips = pair.2 := if_neg hsame
        rw [hcheck]
        rfl

end Registry

/-! ## Exact dispatch -/

/-- Undisturbed, a run brings a finding for each pair of a resource and a check that supports it,
and no other predicate has a say in it. -/
theorem Registry.run_dispatches (calls : List Registry.Call) (rs : List Resource)
    (o : RunOptions) (around : Surroundings) (cancelled : List Token)
    (h : Undisturbed o around cancelled ((afterCalls calls).jobs (.ofList rs)))
    (hreaches : o.parallel = true → around.Reaches ((afterCalls calls).jobs (.ofList rs))) :
    ((afterCalls calls).run (.ofList rs) o around cancelled).1.Dispatches (afterCalls calls)
        (.ofList rs) ∧
      ∀ id predicate trips,
        let others := afterCalls (calls.map (Call.map (Check.replaced id predicate trips)))
        ∀ o' around' cancelled', Undisturbed o' around' cancelled' (others.jobs (.ofList rs)) →
          (o'.parallel = true → around'.Reaches (others.jobs (.ofList rs))) →
          (others.run (.ofList rs) o' around' cancelled').1.findings.filter (·.checkId ≠ id) =
            ((afterCalls calls).run (.ofList rs) o around cancelled).1.findings.filter
              (·.checkId ≠ id) := by
  refine ⟨dispatches_of_undisturbed h hreaches, ?_⟩
  intro id predicate trips others o' around' cancelled' h' hreaches'
  have hothers : others = (afterCalls calls).mapChecks (Check.replaced id predicate trips) :=
    afterCalls_map (Check.info_replaced id predicate trips) calls
  rw [findings_of_undisturbed h' hreaches', findings_of_undisturbed h hreaches, hothers,
    pairings_mapChecks (Check.info_replaced id predicate trips), List.map_map]
  exact filter_judge_replaced id predicate trips _

/-- Two workers, the second one ahead, a resource that is malformed, a check that breaks off, one
that is refused, and a token that nobody cancels. -/
theorem Registry.run_dispatches_breaksOff :
    let calls : List Registry.Call :=
      [.register (.pure (.of "A" "a" [.iam] ["vm"]) fun _ => .breaksOff none),
        .register (.pure (.of "A" "b" [] ["vm"]) fun _ => .verdict .passed), .freeze]
    let rs : List Resource :=
      [⟨"vm", "web", .malformed "text"⟩, ⟨"net", "a", .attributes .empty⟩,
        ⟨"vm", "db", .attributes .empty⟩]
    let around : Surroundings := ⟨fun _ => [], fun _ => [.read 1, .judge 1 0, .read 0, .judge 0 0]⟩
    let run := ((afterCalls calls).run (.ofList rs) ⟨true, some 0⟩ around [1]).1
    run.Dispatches (afterCalls calls) (.ofList rs) ∧
      run = ⟨[⟨"A", "a", "vm", "web", .failed, .iam, some "resource is malformed: text"⟩,
        ⟨"A", "a", "vm", "db", .failed, .iam,
          some "check panicked: non-string panic payload"⟩], 2, false⟩ := by
  intro calls rs around run
  refine ⟨(run_dispatches calls rs ⟨true, some 0⟩ around [1] ⟨?_, ?_, ?_, ?_⟩ ?_).1,
    by decide +kernel⟩
  · rintro t ⟨⟩
    decide
  · rintro t ⟨⟩
    decide
  · rintro t ⟨⟩ place
    exact List.not_mem_nil
  · rintro t ⟨⟩
    decide
  · intro _ i hi
    have hlt : i < 2 := hi
    match i, hlt with
    | 0, _ => decide
    | 1, _ => decide

end ResourceAudit
