import ResourceAudit.Evaluation
import Mathlib.Data.List.Basic

/-!
# What runs bring

A run is made of whole jobs (`Run.Covers`), and is partial exactly if some job is missing. What
workers brought is one: the jobs that they were free to do (`Progress.toRun_covers`).
-/

namespace ResourceAudit

/-! ## Jobs done -/

/-- A run is made of these jobs, out of all. -/
structure Run.Covers (run : Run) (done jobs : List Job) : Prop where
  sublist : done.Sublist jobs
  findings : run.findings = done.flatMap Job.findings
  evaluated : run.evaluated = done.length
  isPartial : run.isPartial = true ↔ done.length < jobs.length

namespace Run.Covers

variable {run : Run} {done jobs : List Job}

theorem not_partial_iff (h : run.Covers done jobs) : run.isPartial = false ↔ done = jobs := by
  rw [Bool.eq_false_iff, ne_eq, h.isPartial]
  constructor
  · intro hlen
    exact h.sublist.eq_of_length_le (Nat.le_of_not_lt hlen)
  · rintro rfl
    exact Nat.lt_irrefl _

protected theorem eq (h : run.Covers done jobs) :
    run = ⟨done.flatMap Job.findings, done.length, done.length < jobs.length⟩ := by
  obtain ⟨findings, evaluated, isPartial⟩ := run
  have hfindings : findings = _ := h.findings
  have hevaluated : evaluated = _ := h.evaluated
  have hpartial : isPartial = decide (done.length < jobs.length) := by
    rw [Bool.eq_iff_iff, decide_eq_true_eq]
    exact h.isPartial
  rw [hfindings, hevaluated, hpartial]

theorem eq_of_all (h : run.Covers jobs jobs) :
    run = ⟨jobs.flatMap Job.findings, jobs.length, false⟩ := by
  rw [h.eq, decide_eq_false (Nat.lt_irrefl _)]

end Run.Covers

/-- The jobs that workers were free to do. -/
def Progress.done (p : Progress) (jobs : List Job) : List Job :=
  (jobs.zipIdx.filter fun e => p.admitted.contains e.2).map (·.1)

/-- What a run takes in is what was brought; nothing brought makes it partial. -/
theorem Progress.foldr_take (p : Progress) (es : List (Job × Nat)) :
    (es.map fun (j, i) => if p.admitted.contains i then some j.findings else none).foldr Run.take
        .empty =
      { findings := (es.filter fun e => p.admitted.contains e.2).flatMap (·.1.findings)
        evaluated := (es.filter fun e => p.admitted.contains e.2).length
        isPartial := (es.filter fun e => p.admitted.contains e.2).length < es.length } := by
  induction es with
  | nil => rfl
  | cons e rest ih =>
      obtain ⟨j, i⟩ := e
      have hle := List.length_filter_le (fun e : Job × Nat => p.admitted.contains e.2) rest
      rw [List.map_cons, List.foldr_cons, ih]
      by_cases hi : p.admitted.contains i = true
      · simp only [hi, ↓reduceIte, Run.take, List.filter_cons_of_pos, List.flatMap_cons,
          List.length_cons, Nat.add_lt_add_iff_right]
      · have hlt : (rest.filter fun e => p.admitted.contains e.2).length < rest.length + 1 := by
          omega
        simp only [hi, Bool.false_eq_true, ↓reduceIte, Run.take, not_false_eq_true,
          List.filter_cons_of_neg, List.length_cons, hlt, decide_true]

theorem Progress.toRun_covers (p : Progress) (jobs : List Job) :
    (p.toRun jobs).Covers (p.done jobs) jobs where
  sublist := by
    have hsub := (List.filter_sublist (p := fun e : Job × Nat => p.admitted.contains e.2)
      (l := jobs.zipIdx)).map (·.1)
    rwa [List.zipIdx_map_fst] at hsub
  findings := by rw [toRun, brought, foldr_take, done, List.flatMap_map]
  evaluated := by rw [toRun, brought, foldr_take, done, List.length_map]
  isPartial := by
    rw [toRun, brought, foldr_take, done, List.length_map, List.length_zipIdx, decide_eq_true_eq]

theorem Progress.done_eq_of_all {p : Progress} {jobs : List Job}
    (h : ∀ i < jobs.length, i ∈ p.admitted) : p.done jobs = jobs := by
  have hall : jobs.zipIdx.filter (fun e => p.admitted.contains e.2) = jobs.zipIdx := by
    rw [List.filter_eq_self]
    rintro ⟨j, i⟩ he
    have hi := List.snd_lt_of_mem_zipIdx he
    simpa using h i (by omega)
  rw [done, hall, List.zipIdx_map_fst]

/-! ## Runs that nobody disturbs -/

/-- Nobody cancels the token that a run honours: not beforehand, not from outside, and no check
of its jobs. -/
structure Undisturbed (o : RunOptions) (around : Surroundings) (cancelled : List Token)
    (jobs : List Job) : Prop where
  before : ∀ t ∈ o.token, t ∉ cancelled
  checks : ∀ t ∈ o.token, ∀ j ∈ jobs, t ∉ j.tripped
  others : ∀ t ∈ o.token, ∀ place, t ∉ around.others place
  workers : ∀ t ∈ o.token, .cancel t ∉ around.schedule jobs

/-- Workers take up every job. -/
def Surroundings.Reaches (around : Surroundings) (jobs : List Job) : Prop :=
  ∀ i < jobs.length, .read i ∈ around.schedule jobs

theorem Surroundings.reaches_quiet (jobs : List Job) : quiet.Reaches jobs := by
  intro i hi
  have hmem : (jobs[i], i) ∈ jobs.zipIdx :=
    List.mem_zipIdx_iff_getElem?.2 (List.getElem?_eq_getElem hi)
  exact List.mem_flatMap.2 ⟨(jobs[i], i), hmem, List.mem_cons_self⟩

end ResourceAudit
