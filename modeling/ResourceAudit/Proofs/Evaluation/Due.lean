import ResourceAudit.Proofs.Evaluation.Coverage
import ResourceAudit.Proofs.Finding.Order
import Mathlib.Algebra.BigOperators.Group.Finset.Basic

/-!
# Findings that are due

`Finding.due` lists what checks find on declarations if nothing is left out, without jobs and
groups: pair by pair, check by check. A run brings some of it, and all of it unless it is partial
(`Run.Covers.subperm_due`, `Run.Covers.perm_due`). What is said about the findings of audits
is said about this list first: to leave out checks is to leave out their findings
(`filter_checkId_due`), and findings about a pair rest on its own bodies only
(`filter_isAbout_due_eq`).
-/

namespace ResourceAudit

/-! ## Bodies of a pair -/

/-- The bodies declared for a pair, in order. -/
def bodiesOf (ds : List Declaration) (key : String × String) : List Json :=
  (ds.filter (·.key = key)).map (·.body)

theorem Ledger.soleBody_eq_of_bodiesOf_eq {ds ds' : List Declaration} {key : String × String}
    (h : bodiesOf ds key = bodiesOf ds' key) : soleBody ds key = soleBody ds' key := by
  unfold soleBody
  unfold bodiesOf at h
  generalize ds.filter (·.key = key) = own at h ⊢
  generalize ds'.filter (·.key = key) = own' at h ⊢
  rcases own with _ | ⟨d, _ | ⟨e, rest⟩⟩ <;> rcases own' with _ | ⟨d', _ | ⟨e', rest'⟩⟩ <;>
    simp_all

theorem Ledger.resourceOf_eq_of_bodiesOf_eq {ds ds' : List Declaration} {key : String × String}
    (h : bodiesOf ds key = bodiesOf ds' key) : resourceOf ds key = resourceOf ds' key := by
  rw [resourceOf, resourceOf, rowOf, rowOf, soleBody_eq_of_bodiesOf_eq h]

/-- Elements that bring nothing can be left out. -/
theorem flatMap_eq_flatMap_filter {α β : Type} {p : α → Bool} {f g : α → List β} {xs : List α}
    (hin : ∀ x ∈ xs, p x = true → f x = g x) (hout : ∀ x ∈ xs, p x = false → f x = []) :
    xs.flatMap f = (xs.filter p).flatMap g := by
  induction xs with
  | nil => rfl
  | cons x rest ih =>
      have hrest := ih (fun y hy => hin y (List.mem_cons_of_mem _ hy))
        fun y hy => hout y (List.mem_cons_of_mem _ hy)
      rw [List.flatMap_cons, hrest]
      cases hx : p x with
      | true => rw [List.filter_cons_of_pos hx, List.flatMap_cons, hin x List.mem_cons_self hx]
      | false =>
          rw [List.filter_cons_of_neg (by simp [hx]), hout x List.mem_cons_self hx, List.nil_append]

namespace Finding

/-- All findings of checks on declarations: pair by pair in the order of first declaration, check
by check. -/
def due (checks : List Check) (ds : List Declaration) : List Finding :=
  (ds.map Declaration.key).eraseDups.flatMap fun key =>
    (checks.filter (·.info.supports key.1)).map (·.judge (Ledger.resourceOf ds key))

/-- Whether a finding is about a pair. -/
def isAbout (key : String × String) (f : Finding) : Bool :=
  decide (f.resourceType = key.1 ∧ f.resourceName = key.2)

variable {checks : List Check} {ds : List Declaration}

theorem mem_due {f : Finding} : f ∈ due checks ds ↔ ∃ key ∈ ds.map Declaration.key,
    ∃ check ∈ checks, check.info.supports key.1 = true ∧
      check.judge (Ledger.resourceOf ds key) = f := by
  simp only [due, List.mem_flatMap, List.mem_eraseDups, List.mem_map (f := fun check : Check =>
    check.judge _), List.mem_filter, and_assoc]

/-! ## How many there are -/

theorem nodup_subject_due (hids : (checks.map (·.id)).Nodup) (ds : List Declaration) :
    ((due checks ds).map subject).Nodup := by
  have hsubjects (key : String × String) :
      ((checks.filter (·.info.supports key.1)).map (·.judge (Ledger.resourceOf ds key))).map
          subject =
        ((checks.filter (·.info.supports key.1)).map (·.id)).map (key, ·) := by
    rw [List.map_map, List.map_map]
    rfl
  rw [due, List.map_flatMap, List.nodup_flatMap]
  constructor
  · intro key _
    rw [hsubjects]
    exact (hids.sublist (List.filter_sublist.map _)).map (Prod.mk_right_injective key)
  · -- Subjects of different pairs differ in the pair.
    refine (nodup_eraseDups _).imp fun {key key'} hne => ?_
    rw [Function.onFun, hsubjects, hsubjects, List.disjoint_left]
    intro s hs hs'
    obtain ⟨_, _, rfl⟩ := List.mem_map.1 hs
    obtain ⟨_, _, heq⟩ := List.mem_map.1 hs'
    exact hne (congrArg Prod.fst heq).symm

theorem nodup_subject_of_subperm_due (hids : (checks.map (·.id)).Nodup) {fs : List Finding}
    (h : fs.Subperm (due checks ds)) : (fs.map subject).Nodup := by
  obtain ⟨part, hpart, hsub⟩ := h
  exact (hpart.map _).nodup_iff.1 ((nodup_subject_due hids ds).sublist (hsub.map _))

theorem length_due (checks : List Check) (ds : List Declaration) :
    (due checks ds).length = ∑ key ∈ (ds.map Declaration.key).toFinset,
      checks.countP fun check => check.info.supports key.1 := by
  rw [due, List.length_flatMap, ← toFinset_eraseDups, List.sum_toFinset _ (nodup_eraseDups _)]
  simp only [List.length_map, List.countP_eq_length_filter]

/-! ## Some of them -/

/-- Without some checks, the findings are those of the others. -/
theorem filter_checkId_due (ids : List String) (checks : List Check) (ds : List Declaration) :
    (due checks ds).filter (fun f => f.checkId ∈ ids) =
      due (checks.filter fun check => check.id ∈ ids) ds := by
  rw [due, List.filter_flatMap, due]
  apply List.flatMap_congr
  intro key _
  rw [List.filter_map, List.filter_filter, List.filter_filter]
  congr 1
  apply List.filter_congr
  intro check _
  rw [Bool.and_comm]
  rfl

theorem isAbout_judge (key other : String × String) (check : Check) (ds : List Declaration) :
    isAbout key (check.judge (Ledger.resourceOf ds other)) = decide (other = key) := by
  rw [Bool.eq_iff_iff, isAbout, decide_eq_true_eq, decide_eq_true_eq, Prod.ext_iff]
  rfl

theorem filter_isAbout_due (key : String × String) (checks : List Check)
    (ds : List Declaration) :
    (due checks ds).filter (isAbout key) =
      ((bodiesOf ds key).map fun _ => key).eraseDups.flatMap fun _ =>
        (checks.filter (·.info.supports key.1)).map (·.judge (Ledger.resourceOf ds key)) := by
  have hkeys : (ds.map Declaration.key).filter (· = key) = (bodiesOf ds key).map fun _ => key := by
    rw [List.filter_map, bodiesOf, List.map_map]
    apply List.map_congr_left
    intro d hd
    simpa using (List.mem_filter.1 hd).2
  rw [due, List.filter_flatMap, ← hkeys, ← filter_eraseDups]
  -- Other pairs bring nothing about this one.
  refine flatMap_eq_flatMap_filter ?_ ?_
  · intro other _ heq
    obtain rfl : other = key := by simpa using heq
    rw [List.filter_map, List.filter_eq_self.2]
    exact fun check _ => by simp [isAbout_judge]
  · intro other _ hne
    rw [List.filter_map, List.map_eq_nil_iff, List.filter_eq_nil_iff]
    exact fun check _ => by simpa [isAbout_judge] using hne

/-- What is found about a pair rests on the bodies declared for it. -/
theorem filter_isAbout_due_eq {ds ds' : List Declaration} {key : String × String}
    (h : bodiesOf ds key = bodiesOf ds' key) (checks : List Check) :
    (due checks ds).filter (isAbout key) = (due checks ds').filter (isAbout key) := by
  rw [filter_isAbout_due, filter_isAbout_due, h, Ledger.resourceOf_eq_of_bodiesOf_eq h]

end Finding

/-! ## What runs bring of them -/

theorem Registry.flatMap_findings_jobs_perm_due (r : Registry) (ds : List Declaration) :
    ((r.jobs (.ofDeclarations ds)).flatMap Job.findings).Perm (Finding.due r.checks ds) := by
  have hdue : Finding.due r.checks ds =
      ((Ledger.ofDeclarations ds).rows.map Row.resource).flatMap fun x =>
        (r.checksFor x.type).map fun check => check.judge x := by
    rw [Ledger.resources_ofDeclarations, List.flatMap_map]
    rfl
  rw [hdue]
  exact r.flatMap_findings_jobs_perm _

namespace Run.Covers

variable {run : Run} {done : List Job} {r : Registry} {ds : List Declaration}

theorem subperm_due (h : run.Covers done (r.jobs (.ofDeclarations ds))) :
    run.findings.Subperm (Finding.due r.checks ds) := by
  rw [h.findings]
  exact (h.sublist.flatMap Job.findings).subperm.trans
    (r.flatMap_findings_jobs_perm_due ds).subperm

theorem perm_due (h : run.Covers done (r.jobs (.ofDeclarations ds)))
    (hwhole : run.isPartial = false) : run.findings.Perm (Finding.due r.checks ds) := by
  rw [h.findings, h.not_partial_iff.1 hwhole]
  exact r.flatMap_findings_jobs_perm_due ds

end Run.Covers

end ResourceAudit
