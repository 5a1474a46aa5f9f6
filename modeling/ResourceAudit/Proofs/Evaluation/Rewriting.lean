import ResourceAudit.Proofs.Audit.Stages
import ResourceAudit.Proofs.Check.Rewriting
import ResourceAudit.Proofs.Evaluation.Rearrangement
import Mathlib.Data.List.Forall2

/-!
# Runs on other ways of writing

Undisturbed, a run of built-in checks finds the same on attributes that are written in another
way (`Registry.brings_rewritten`). A finding changes only where its check tells the two ways apart.
-/

namespace ResourceAudit

/-! ## Configurations -/

/-- The same resources in the same places, their attributes written in another way. -/
def Configuration.Rewrites (R : Option Json → Option Json → Prop) (c c' : Configuration) : Prop :=
  List.Forall₂ (fun g g' => g.type = g'.type ∧
    List.Forall₂ (Resource.Rewrites R) g.resources g'.resources) c.groups c'.groups

/-- Checks of a registry on a resource, its attributes written in another way. -/
structure Job.Rewrites (R : Option Json → Option Json → Prop) (r : Registry) (j j' : Job) :
    Prop where
  checks : j.checks = j'.checks
  registered : j.checks ⊆ r.checks
  resource : j.resource.Rewrites R j'.resource

/-- A check of a registry on a resource, its attributes written in another way. -/
inductive Finding.Rewrites (R : Option Json → Option Json → Prop) (r : Registry) :
    Finding → Finding → Prop
  | judge {check : Check} {x x' : Resource} (hcheck : check ∈ r.checks) (h : x.Rewrites R x') :
      Rewrites R r (check.judge x) (check.judge x')

section

variable {R : Option Json → Option Json → Prop} {r : Registry} {c c' : Configuration}
  {run run' : Run}

theorem Registry.forall₂_jobs (h : c.Rewrites R c') :
    List.Forall₂ (Job.Rewrites R r) (r.jobs c) (r.jobs c') := by
  rw [jobs_eq_flatMap, jobs_eq_flatMap]
  refine List.rel_flatMap h fun g g' ⟨htype, hresources⟩ => ?_
  rw [jobsOf, jobsOf, htype]
  split
  · exact .nil
  · have hregistered : r.checksFor g'.type ⊆ r.checks := fun _ h => (mem_checksFor.1 h).1
    exact List.rel_map (fun _ _ hx => ⟨rfl, hregistered, hx⟩) hresources

theorem Job.Rewrites.forall₂_findings {j j' : Job} (h : j.Rewrites R r j') :
    List.Forall₂ (Finding.Rewrites R r) j.findings j'.findings := by
  rw [findings, findings, ← h.checks, List.forall₂_map_left_iff, List.forall₂_map_right_iff,
    List.forall₂_same]
  exact fun _ hcheck => .judge (h.registered hcheck) h.resource

theorem filter_eq_of_forall₂ {α : Type} {p : α → Bool} {xs ys : List α}
    (h : List.Forall₂ (fun x y => p x = p y ∧ (p x = true → x = y)) xs ys) :
    xs.filter p = ys.filter p := by
  induction h with
  | nil => rfl
  | @cons x y _ _ hxy _ ih =>
      obtain ⟨hsame, heq⟩ := hxy
      by_cases hx : p x = true
      · rw [List.filter_cons_of_pos hx, List.filter_cons_of_pos (hsame ▸ hx), heq hx, ih]
      · rw [List.filter_cons_of_neg hx, List.filter_cons_of_neg (hsame ▸ hx), ih]

/-! ## Runs -/

/-- What a run on a configuration brings if nobody cancels it. -/
def Registry.Brings (r : Registry) (c : Configuration) (run : Run) : Prop :=
  ∃ (o : RunOptions) (around : Surroundings) (cancelled : List Token),
    Undisturbed o around cancelled (r.jobs c) ∧
      (o.parallel = true → around.Reaches (r.jobs c)) ∧ (r.run c o around cancelled).1 = run

/-- The same findings of a check, as they came and in the summary. -/
structure Run.SameRecords (id : String) (run run' : Run) : Prop where
  found : run.findings.filter (·.checkId = id) = run'.findings.filter (·.checkId = id)
  reported : run.summary.findings.filter (·.checkId = id) =
    run'.summary.findings.filter (·.checkId = id)

namespace Registry.Brings

theorem run_eq (h : r.Brings c run) :
    run = ⟨(r.jobs c).flatMap Job.findings, (r.jobs c).length, false⟩ := by
  obtain ⟨o, around, cancelled, hundisturbed, hreaches, rfl⟩ := h
  exact run_eq_of_undisturbed hundisturbed hreaches

theorem forall₂_findings (h : r.Brings c run) (h' : r.Brings c' run') (hc : c.Rewrites R c') :
    List.Forall₂ (Finding.Rewrites R r) run.findings run'.findings := by
  rw [h.run_eq, h'.run_eq]
  exact List.rel_flatMap (forall₂_jobs hc) fun _ _ => Job.Rewrites.forall₂_findings

/-- Where no check tells the ways of writing apart, a run does not either. -/
theorem eq_of_judge_eq (h : r.Brings c run) (h' : r.Brings c' run') (hc : c.Rewrites R c')
    (hjudge : ∀ check ∈ r.checks, ∀ x x', x.Rewrites R x' → check.judge x = check.judge x') :
    run = run' := by
  have hfindings : run.findings = run'.findings := by
    rw [← List.forall₂_eq_eq_eq]
    refine (h.forall₂_findings h' hc).imp fun f f' hf => ?_
    obtain ⟨hcheck, hx⟩ := hf
    exact hjudge _ hcheck _ _ hx
  have hlength : (r.jobs c).length = (r.jobs c').length := (forall₂_jobs hc).length_eq
  rw [h.run_eq, h'.run_eq] at hfindings ⊢
  rw [hlength]
  exact congrArg (Run.mk · _ _) hfindings

theorem exists_judge (h : r.Brings c run) {f : Finding} (hf : f ∈ run.findings) :
    ∃ check ∈ r.checks, ∃ x, check.judge x = f := by
  rw [h.run_eq, jobs_eq_flatMap] at hf
  obtain ⟨j, hj, hf⟩ := List.mem_flatMap.1 hf
  obtain ⟨g, _, hj⟩ := List.mem_flatMap.1 hj
  unfold jobsOf at hj
  split at hj
  · cases hj
  · obtain ⟨x, _, rfl⟩ := List.mem_map.1 hj
    obtain ⟨check, hcheck, rfl⟩ := List.mem_map.1 hf
    exact ⟨check, (mem_checksFor.1 hcheck).1, x, rfl⟩

/-- Findings of built-in checks that the order does not tell apart are the same, so that those of
one check can be taken from the summary. -/
theorem filter_findings_summary (h : r.Brings c run) (hbuiltin : r.checks ⊆ Builtin.checks)
    (p : Finding → Bool) :
    run.summary.findings.filter p = Finding.sort (run.findings.filter p) := by
  refine Finding.filter_sort p fun f hf f' hf' heq => ?_
  obtain ⟨check, hcheck, x, rfl⟩ := h.exists_judge hf
  obtain ⟨check', hcheck', x', rfl⟩ := h.exists_judge hf'
  exact eq_of_order_eq_eq Builtin.nodup_id_checks (hbuiltin hcheck) (hbuiltin hcheck') heq

/-- Where a built-in check does not tell the ways of writing apart, its records are the same. -/
theorem sameRecords_of_judge_eq (h : r.Brings c run) (h' : r.Brings c' run')
    (hc : c.Rewrites R c') (hbuiltin : r.checks ⊆ Builtin.checks) {check : Check}
    (hcheck : check ∈ Builtin.checks)
    (hjudge : ∀ x x', x.Rewrites R x' → check.judge x = check.judge x') :
    run.SameRecords check.id run' := by
  have hfound : run.findings.filter (·.checkId = check.id) =
      run'.findings.filter (·.checkId = check.id) := by
    refine filter_eq_of_forall₂ ((h.forall₂_findings h' hc).imp fun f f' hf => ?_)
    obtain ⟨hother, hx⟩ := hf
    rename_i other x x'
    refine ⟨rfl, fun hid => ?_⟩
    -- Built-in checks are told apart by their ids.
    obtain rfl : other = check := List.inj_on_of_nodup_map Builtin.nodup_id_checks
      (hbuiltin hother) hcheck (of_decide_eq_true hid)
    exact hjudge _ _ hx
  refine ⟨hfound, ?_⟩
  rw [h.filter_findings_summary hbuiltin, h'.filter_findings_summary hbuiltin, hfound]

end Registry.Brings

/-- However attributes are wrapped, a run of built-in checks brings the same. What else is written
in another way shows only to the checks that tell it apart. -/
theorem Registry.brings_rewritten (hbuiltin : r.checks ⊆ Builtin.checks) (h : r.Brings c run)
    (h' : r.Brings c' run') :
    (c.Rewrites (Relation.EqvGen Json.Rewraps) c' → run = run') ∧
    (c.Rewrites (Option.Rel (Relation.EqvGen (Json.Within Json.Continues))) c' →
      run.SameRecords "CUSTOM_AWS_2" run' ∧ run.SameRecords "CUSTOM_AWS_3" run') ∧
    (c.Rewrites (Option.Rel (Relation.EqvGen (Json.Within Json.Rearranges))) c' →
      run.SameRecords "CUSTOM_AWS_1" run') ∧
    (c.Rewrites (Option.Rel (Relation.ReflTransGen (Json.Within Json.Enlarges))) c' →
      List.Forall₂ (fun f f' => f.checkId = "CUSTOM_AWS_1" → f.verdict = .passed → f = f')
        run.findings run'.findings) := by
  have hfirst : Builtin.instanceProfile ∈ Builtin.checks := by simp [Builtin.checks]
  have hsecond : Builtin.privateSubnet ∈ Builtin.checks := by simp [Builtin.checks]
  have hthird : Builtin.groupDescription ∈ Builtin.checks := by simp [Builtin.checks]
  refine ⟨fun hc => ?_, fun hc => ⟨?_, ?_⟩, fun hc => ?_, fun hc => ?_⟩
  · exact h.eq_of_judge_eq h' hc fun check hcheck _ _ hx =>
      Builtin.judge_eq_of_rewraps hx check (hbuiltin hcheck)
  · exact h.sameRecords_of_judge_eq h' hc hbuiltin hsecond fun _ _ hx =>
      (Builtin.judge_eq_of_continues hx).1
  · exact h.sameRecords_of_judge_eq h' hc hbuiltin hthird fun _ _ hx =>
      (Builtin.judge_eq_of_continues hx).2
  · exact h.sameRecords_of_judge_eq h' hc hbuiltin hfirst fun _ _ =>
      Builtin.judge_eq_of_rearranges
  · refine (h.forall₂_findings h' hc).imp fun f f' hf hid hpassed => ?_
    obtain ⟨hcheck, hx⟩ := hf
    rename_i check x x'
    obtain rfl : check = Builtin.instanceProfile :=
      List.inj_on_of_nodup_map Builtin.nodup_id_checks (hbuiltin hcheck) hfirst hid
    exact Builtin.judge_eq_of_enlarges hx hpassed

end

/-- A subnet in one more list, lists around no subnet left out, an object behind the first item, a
profile at another place and one more item; next to it a malformed resource. -/
theorem Registry.brings_rewritten_web :
    let r := afterCalls (Builtin.checks.map .register)
    let attributes : Attributes :=
      .ofList [("iam_instance_profile", .list [.string "", .string "web"]),
        ("subnet_id", .list [.string "subnet-private"])]
    let web (attributes : Attributes) : Configuration := .ofList
      [⟨"aws_instance", "web", .attributes attributes⟩, ⟨"aws_instance", "db", .malformed "text"⟩]
    let run (attributes : Attributes) : Run := (r.run (web attributes) ⟨true, none⟩ .quiet []).1
    run attributes =
        run (attributes.insert "subnet_id" (.list [.list [.string "subnet-private"]])) ∧
      run .empty = run (Dictionary.empty.insert "subnet_id" (.list [.list []])) ∧
      (run attributes).SameRecords "CUSTOM_AWS_2"
        (run (attributes.insert "subnet_id" (.list [.string "subnet-private", .object []]))) ∧
      (run attributes).SameRecords "CUSTOM_AWS_1"
        (run (attributes.insert "iam_instance_profile" (.list [.string "web", .string ""]))) ∧
      List.Forall₂ (fun f f' => f.checkId = "CUSTOM_AWS_1" → f.verdict = .passed → f = f')
        (run attributes).findings (run (attributes.insert "iam_instance_profile"
          (.list [.string "", .null, .string "web"]))).findings := by
  intro r attributes web run
  have hbuiltin : r.checks ⊆ Builtin.checks := by
    have hchecks : r.checks = Builtin.checks := rfl
    exact hchecks ▸ List.Subset.refl _
  have hbrings (attributes : Attributes) : r.Brings (web attributes) (run attributes) :=
    ⟨⟨true, none⟩, .quiet, [], by constructor <;> simp, fun _ => Surroundings.reaches_quiet _, rfl⟩
  have hweb {R : Option Json → Option Json → Prop} {attributes : Attributes} {key : String}
      {value : Json} (hrefl : ∀ value?, R value? value?)
      (h : R (attributes.get? key) (some value)) :
      (web attributes).Rewrites R (web (attributes.insert key value)) := by
    have hdb : Resource.Rewrites R ⟨"aws_instance", "db", .malformed "text"⟩
        ⟨"aws_instance", "db", .malformed "text"⟩ := ⟨rfl, rfl, rfl, fun _ => hrefl _⟩
    exact .cons ⟨rfl, .cons (Resource.rewrites_insert hrefl h) (.cons hdb .nil)⟩ .nil
  have hrefl {S : Json → Json → Prop} (hS : ∀ j, S j j) (value? : Option Json) :
      Option.Rel S value? value? := by
    cases value? with
    | none => exact .none
    | some j => exact .some (hS j)
  have hsubnet : attributes.get? "subnet_id" = some (.list [.string "subnet-private"]) := rfl
  have hprofile : attributes.get? "iam_instance_profile" =
      some (.list [.string "", .string "web"]) := rfl
  refine ⟨?_, ?_, ?_, ?_, ?_⟩
  · refine (brings_rewritten hbuiltin (hbrings _) (hbrings _)).1 (hweb .refl ?_)
    rw [hsubnet]
    exact .rel _ _ (.wraps (.item [] [] (.here (.wrap _))))
  · refine (brings_rewritten hbuiltin (hbrings _) (hbrings _)).1 (hweb .refl ?_)
    exact .symm _ _ (.rel _ _ (.drops (.wrap .empty)))
  · refine ((brings_rewritten hbuiltin (hbrings _) (hbrings _)).2.1 (hweb (hrefl .refl) ?_)).1
    rw [hsubnet]
    exact .some (.rel _ _ (.here (.continue _ [] [.object []])))
  · refine (brings_rewritten hbuiltin (hbrings _) (hbrings _)).2.2.1 (hweb (hrefl .refl) ?_)
    rw [hprofile]
    exact .some (.rel _ _ (.here (.shuffle (.swap _ _ _))))
  · refine (brings_rewritten hbuiltin (hbrings _) (hbrings _)).2.2.2
      (hweb (hrefl fun _ => .refl) ?_)
    rw [hprofile]
    exact .some (.single (.here (.enlarge [.string ""] [.string "web"] .null)))

end ResourceAudit
