import ResourceAudit.Proofs.Evaluation.Jobs
import ResourceAudit.Proofs.Evaluation.Runs
import ResourceAudit.Proofs.Registry.Calls
import Mathlib.Data.Finset.Range
import Mathlib.Data.Finset.Card

/-!
# Schedules

Jobs done one by one are jobs done by workers of whom one follows the other
(`oneByOne_eq_byWorkers`). In both modes a run is therefore told by the readings of its token: the
units that found it uncancelled are done, the others are not, and no order of readings, judgements
and cancellations brings anything else (`Registry.run_evaluates`). None finds it cancelled where
nobody cancels it, and all jobs are done (`Registry.run_eq_of_undisturbed`).
-/

namespace ResourceAudit

/-! ## Readings -/

theorem mustStop_eq_true_iff {token : Option Token} {cancelled : List Token} :
    mustStop token cancelled = true ↔ ∃ t ∈ token, t ∈ cancelled := by
  cases token with
  | none => simp [mustStop]
  | some t => simp [mustStop]

theorem mustStop_congr {token : Option Token} {cancelled cancelled' : List Token}
    (h : ∀ t, t ∈ cancelled ↔ t ∈ cancelled') :
    mustStop token cancelled = mustStop token cancelled' := by
  rw [Bool.eq_iff_iff, mustStop_eq_true_iff, mustStop_eq_true_iff]
  simp only [h]

namespace Progress

variable {token : Option Token} {jobs : List Job} {p : Progress}

/-- How far the workers are after some events. -/
def after (token : Option Token) (jobs : List Job) (cancelled : List Token)
    (events : List Event) : Progress :=
  events.foldl (step token jobs) ⟨cancelled, []⟩

/-- In the course of the events a job reads the token, and is told to stop or not to. -/
def Reads (token : Option Token) (jobs : List Job) (cancelled : List Token)
    (events : List Event) (i : Nat) (stop : Bool) : Prop :=
  ∃ before rest, events = before ++ .read i :: rest ∧
    mustStop token (after token jobs cancelled before).cancelled = stop

/-! ## Steps -/

theorem step_read (i : Nat) :
    p.step token jobs (.read i) =
      if mustStop token p.cancelled then p else { p with admitted := i :: p.admitted } := rfl

theorem step_cancel (t : Token) :
    p.step token jobs (.cancel t) = { p with cancelled := t :: p.cancelled } := rfl

theorem admitted_step_judge (i k : Nat) :
    (p.step token jobs (.judge i k)).admitted = p.admitted := by
  unfold step
  dsimp only
  split <;> rfl

theorem mem_cancelled_step_judge {i k : Nat} {j : Job} (hj : jobs[i]? = some j)
    (hi : i ∈ p.admitted) (t : Token) :
    t ∈ (p.step token jobs (.judge i k)).cancelled ↔
      (∃ c, j.checks[k]? = some c ∧ t ∈ c.tripped j.resource) ∨ t ∈ p.cancelled := by
  have hadmitted : p.admitted.contains i = true := by simpa using hi
  unfold step
  simp only [hadmitted, ↓reduceIte, List.mem_append, hj]
  cases hc : j.checks[k]? with
  | none => simp [hc]
  | some c => simp [hc]

/-- Nobody takes a cancellation back. -/
theorem mem_cancelled_step (e : Event) {t : Token} (ht : t ∈ p.cancelled) :
    t ∈ (p.step token jobs e).cancelled := by
  cases e with
  | read i =>
      rw [step_read]
      split <;> exact ht
  | judge i k =>
      unfold step
      dsimp only
      split
      · exact List.mem_append_right _ ht
      · exact ht
  | cancel u => exact List.mem_cons_of_mem _ ht

/-- A token stays uncancelled through an event unless the event, or a check, cancels it. -/
theorem not_mem_cancelled_step {t : Token} {p : Progress} {e : Event} (hp : t ∉ p.cancelled)
    (hchecks : ∀ j ∈ jobs, t ∉ j.tripped) (he : e ≠ .cancel t) :
    t ∉ (p.step token jobs e).cancelled := by
  cases e with
  | read i =>
      unfold step
      dsimp only
      split <;> exact hp
  | judge i k =>
      unfold step
      dsimp only
      split
      · rw [List.mem_append, not_or]
        refine ⟨?_, hp⟩
        cases hj : jobs[i]? with
        | none => simp
        | some j =>
            cases hc : j.checks[k]? with
            | none => simp [hc]
            | some c =>
                have hmem := hchecks j (List.mem_of_getElem? hj)
                intro ht
                exact hmem (List.mem_flatMap.2 ⟨c, List.mem_of_getElem? hc, by simpa [hc] using ht⟩)
      · exact hp
  | cancel u =>
      have hne : t ≠ u := fun h => he (h ▸ rfl)
      simpa [step] using ⟨hne, hp⟩

theorem mustStop_step (e : Event) (h : mustStop token p.cancelled = true) :
    mustStop token (p.step token jobs e).cancelled = true := by
  obtain ⟨t, htoken, ht⟩ := mustStop_eq_true_iff.1 h
  exact mustStop_eq_true_iff.2 ⟨t, htoken, mem_cancelled_step e ht⟩

theorem mem_admitted_step_iff (e : Event) (i : Nat) :
    i ∈ (p.step token jobs e).admitted ↔
      i ∈ p.admitted ∨ e = .read i ∧ mustStop token p.cancelled = false := by
  cases e with
  | read k =>
      rw [step_read]
      cases hstop : mustStop token p.cancelled with
      | true => simp
      | false => simp [or_comm, eq_comm]
  | judge k l => simp [admitted_step_judge]
  | cancel u => simp [step_cancel]

/-! ## Events in a row -/

theorem mem_admitted_foldl_iff (events : List Event) (i : Nat) :
    i ∈ (events.foldl (step token jobs) p).admitted ↔
      i ∈ p.admitted ∨ ∃ before rest, events = before ++ .read i :: rest ∧
        mustStop token (before.foldl (step token jobs) p).cancelled = false := by
  induction events generalizing p with
  | nil => simp
  | cons e later ih =>
      rw [List.foldl_cons, ih, mem_admitted_step_iff]
      constructor
      · rintro ((hi | ⟨rfl, hfree⟩) | ⟨before, rest, rfl, hfree⟩)
        · exact .inl hi
        · exact .inr ⟨[], later, rfl, hfree⟩
        · exact .inr ⟨e :: before, rest, rfl, hfree⟩
      · rintro (hi | ⟨before, rest, hevents, hfree⟩)
        · exact .inl (.inl hi)
        · cases before with
          | nil =>
              obtain ⟨rfl, rfl⟩ := List.cons.inj hevents
              exact .inl (.inr ⟨rfl, hfree⟩)
          | cons _ before =>
              obtain ⟨rfl, rfl⟩ := List.cons.inj hevents
              exact .inr ⟨before, rest, rfl, hfree⟩

theorem mem_admitted_after_iff {cancelled : List Token} {events : List Event} {i : Nat} :
    i ∈ (after token jobs cancelled events).admitted ↔
      Reads token jobs cancelled events i false := by
  rw [after, mem_admitted_foldl_iff]
  simp [Reads, after]

/-- Once the token is cancelled no job is admitted any more. -/
theorem admitted_foldl_of_mustStop (events : List Event)
    (h : mustStop token p.cancelled = true) :
    (events.foldl (step token jobs) p).admitted = p.admitted := by
  induction events generalizing p with
  | nil => rfl
  | cons e rest ih =>
      rw [List.foldl_cons, ih (mustStop_step e h)]
      cases e with
      | read i => rw [step_read, if_pos h]
      | judge i k => rw [admitted_step_judge]
      | cancel t => rw [step_cancel]

theorem mustStop_foldl (jobs : List Job) (events : List Event)
    (h : mustStop token p.cancelled = true) :
    mustStop token (events.foldl (step token jobs) p).cancelled = true := by
  induction events generalizing p with
  | nil => exact h
  | cons e rest ih => exact ih (mustStop_step e h)

/-- A token that is uncancelled in the end was so at every reading. -/
theorem not_reads_of_not_mustStop {cancelled : List Token} {events : List Event}
    (h : mustStop token (after token jobs cancelled events).cancelled = false) (i : Nat) :
    ¬ Reads token jobs cancelled events i true := by
  rintro ⟨before, rest, rfl, hstop⟩
  have hlater := mustStop_foldl jobs (.read i :: rest) hstop
  rw [after, ← List.foldl_append, ← after, h] at hlater
  exact Bool.false_ne_true hlater

theorem not_mem_cancelled_foldl {t : Token} {events : List Event} (hp : t ∉ p.cancelled)
    (hchecks : ∀ j ∈ jobs, t ∉ j.tripped) (hevents : .cancel t ∉ events) :
    t ∉ (events.foldl (step token jobs) p).cancelled := by
  induction events generalizing p with
  | nil => exact hp
  | cons e rest ih =>
      rw [List.mem_cons, not_or] at hevents
      exact ih (not_mem_cancelled_step hp hchecks (Ne.symm hevents.1)) hevents.2

theorem foldl_cancel (ts : List Token) :
    (ts.map .cancel).foldl (step token jobs) p =
      { p with cancelled := ts.reverse ++ p.cancelled } := by
  induction ts generalizing p with
  | nil => rfl
  | cons t rest ih =>
      rw [List.map_cons, List.foldl_cons, ih, step_cancel, List.reverse_cons, List.append_assoc,
        List.singleton_append]

theorem admitted_foldl_judge (i : Nat) (ks : List Nat) :
    ((ks.map (.judge i ·)).foldl (step token jobs) p).admitted = p.admitted := by
  induction ks generalizing p with
  | nil => rfl
  | cons k rest ih => rw [List.map_cons, List.foldl_cons, ih, admitted_step_judge]

theorem mem_cancelled_foldl_judge {i : Nat} {j : Job} (hj : jobs[i]? = some j)
    (hi : i ∈ p.admitted) (ks : List Nat) (t : Token) :
    t ∈ ((ks.map (.judge i ·)).foldl (step token jobs) p).cancelled ↔
      (∃ k ∈ ks, ∃ c, j.checks[k]? = some c ∧ t ∈ c.tripped j.resource) ∨ t ∈ p.cancelled := by
  induction ks generalizing p with
  | nil => simp
  | cons k rest ih =>
      have hi' : i ∈ (p.step token jobs (.judge i k)).admitted := by
        rwa [admitted_step_judge]
      rw [List.map_cons, List.foldl_cons, ih hi', mem_cancelled_step_judge hj hi, ← or_assoc]
      simp only [List.mem_cons, exists_eq_or_imp]
      exact or_congr_left or_comm

/-- All checks of a job cancel what the job trips. -/
theorem mem_tripped_iff {j : Job} {t : Token} :
    t ∈ j.tripped ↔ ∃ k ∈ List.range j.checks.length, ∃ c, j.checks[k]? = some c ∧
      t ∈ c.tripped j.resource := by
  rw [Job.tripped, List.mem_flatMap]
  constructor
  · rintro ⟨c, hc, ht⟩
    obtain ⟨k, hk⟩ := List.mem_iff_getElem?.1 hc
    obtain ⟨hlt, _⟩ := List.getElem?_eq_some_iff.1 hk
    exact ⟨k, List.mem_range.2 hlt, c, hk, ht⟩
  · rintro ⟨k, _, c, hk, ht⟩
    exact ⟨c, List.mem_of_getElem? hk, ht⟩

end Progress

/-! ## One by one as a schedule -/

/-- The events at a place of a run one by one: others cancel tokens, the job reads the token, its
checks judge. -/
def turn (others : Nat → List Token) (e : Job × Nat) : List Event :=
  (others e.2).map .cancel ++ .read e.2 :: (List.range e.1.checks.length).map (.judge e.2 ·)

/-- The schedule in which one job follows the other. -/
def inTurn (others : Nat → List Token) (jobs : List Job) : List Event :=
  jobs.zipIdx.flatMap (turn others)

namespace Progress

variable {token : Option Token} {jobs : List Job} {p : Progress}

/-- A turn that finds the token cancelled admits nothing, then or later. -/
theorem admitted_foldl_turn_of_mustStop {others : Nat → List Token} {e : Job × Nat}
    (hstop : mustStop token (others e.2 ++ p.cancelled) = true) (later : List Event) :
    ((turn others e ++ later).foldl (step token jobs) p).admitted = p.admitted := by
  have hcongr : mustStop token ((others e.2).reverse ++ p.cancelled) = true := by
    rw [← hstop]
    exact mustStop_congr (by simp)
  rw [turn, List.append_assoc, List.foldl_append, foldl_cancel, admitted_foldl_of_mustStop _ hcongr]

/-- A turn that finds the token uncancelled admits its job, and cancels what the job trips. -/
theorem foldl_turn_of_not_mustStop {others : Nat → List Token} {j : Job} {i : Nat}
    (hj : jobs[i]? = some j) (hfree : mustStop token (others i ++ p.cancelled) = false) :
    ((turn others (j, i)).foldl (step token jobs) p).admitted = i :: p.admitted ∧
      ∀ t, t ∈ ((turn others (j, i)).foldl (step token jobs) p).cancelled ↔
        t ∈ j.tripped ++ (others i ++ p.cancelled) := by
  have hcongr : mustStop token ((others i).reverse ++ p.cancelled) = false := by
    rw [← hfree]
    exact mustStop_congr (by simp)
  have hread : (turn others (j, i)).foldl (step token jobs) p =
      ((List.range j.checks.length).map (.judge i ·)).foldl (step token jobs)
        ⟨(others i).reverse ++ p.cancelled, i :: p.admitted⟩ := by
    rw [turn, List.foldl_append, foldl_cancel, List.foldl_cons, step_read]
    simp only [hcongr, Bool.false_eq_true, ↓reduceIte]
  rw [hread, admitted_foldl_judge]
  refine ⟨rfl, fun t => ?_⟩
  rw [mem_cancelled_foldl_judge hj List.mem_cons_self, ← mem_tripped_iff]
  simp

end Progress

/-- One by one, the first jobs are done, as many as the schedule in turn admits. The induction is
on the jobs that are still to come; `whole` is what their places count in. -/
theorem oneByOne_inTurn (token : Option Token) (others : Nat → List Token) (whole : List Job)
    {rest : List Job} {place : Nat} {cancelled : List Token} {p : Progress}
    (hrest : ∀ k, whole[place + k]? = rest[k]?) (hmem : ∀ t, t ∈ p.cancelled ↔ t ∈ cancelled) :
    ∃ n ≤ rest.length,
      (oneByOne token others place cancelled rest).1 =
        ⟨(rest.take n).flatMap Job.findings, n, n < rest.length⟩ ∧
      ∀ i, i ∈ (((rest.zipIdx place).flatMap (turn others)).foldl (Progress.step token whole)
          p).admitted ↔ i ∈ p.admitted ∨ (place ≤ i ∧ i < place + n) := by
  induction rest generalizing place cancelled p with
  | nil =>
      refine ⟨0, Nat.le_refl 0, rfl, fun i => ?_⟩
      simp
  | cons j rest ih =>
      have hsame : mustStop token (others place ++ p.cancelled) =
          mustStop token (others place ++ cancelled) := mustStop_congr (by simp [hmem])
      rw [List.zipIdx_cons, List.flatMap_cons]
      unfold oneByOne
      cases hstop : mustStop token (others place ++ cancelled) with
      | true =>
          refine ⟨0, Nat.zero_le _, by simp [hstop, Run.empty], fun i => ?_⟩
          rw [Progress.admitted_foldl_turn_of_mustStop (hsame.trans hstop)]
          simp
      | false =>
          have hj : whole[place]? = some j := by simpa using hrest 0
          obtain ⟨hadmitted, hcancelled⟩ :=
            Progress.foldl_turn_of_not_mustStop hj (hsame.trans hstop)
          have hnext (k : Nat) : whole[place + 1 + k]? = rest[k]? := by
            rw [Nat.add_assoc, Nat.add_comm 1 k, hrest (k + 1), List.getElem?_cons_succ]
          have hmem' (t : Token) :
              t ∈ ((turn others (j, place)).foldl (Progress.step token whole) p).cancelled ↔
                t ∈ j.tripped ++ (others place ++ cancelled) := by
            rw [hcancelled]
            simp [hmem]
          obtain ⟨n, hn, hrun, hplaces⟩ := ih hnext hmem'
          refine ⟨n + 1, Nat.succ_le_succ hn, ?_, fun i => ?_⟩
          · simp only [hstop, Bool.false_eq_true, ↓reduceIte, hrun]
            simp [Run.withJob]
          · rw [List.foldl_append, hplaces, hadmitted, List.mem_cons]
            constructor
            · rintro ((rfl | hi) | hi)
              · exact .inr (by omega)
              · exact .inl hi
              · exact .inr (by omega)
            · rintro (hi | hi)
              · exact .inl (.inr hi)
              · by_cases hplace : i = place
                · exact .inl (.inl hplace)
                · exact .inr (by omega)

theorem oneByOne_inTurn_start (token : Option Token) (others : Nat → List Token)
    (cancelled : List Token) (jobs : List Job) :
    ∃ n ≤ jobs.length,
      (oneByOne token others 0 cancelled jobs).1 =
        ⟨(jobs.take n).flatMap Job.findings, n, n < jobs.length⟩ ∧
      ∀ i, i ∈ (Progress.after token jobs cancelled (inTurn others jobs)).admitted ↔ i < n := by
  have hstart (t : Token) : t ∈ (⟨cancelled, []⟩ : Progress).cancelled ↔ t ∈ cancelled := Iff.rfl
  have hrest (k : Nat) : jobs[0 + k]? = jobs[k]? := by rw [Nat.zero_add]
  obtain ⟨n, hn, hrun, hplaces⟩ := oneByOne_inTurn token others jobs hrest hstart
  refine ⟨n, hn, hrun, fun i => ?_⟩
  rw [Progress.after, inTurn, hplaces]
  simp

/-- The places below a bound are those of the first jobs. -/
theorem Progress.done_eq_take {p : Progress} {jobs : List Job} {n : Nat}
    (h : ∀ i, i ∈ p.admitted ↔ i < n) : p.done jobs = jobs.take n := by
  have htake (l : List Job) (k m : Nat) :
      ((l.zipIdx k).filter fun e => decide (e.2 < k + m)).map (·.1) = l.take m := by
    induction l generalizing k m with
    | nil => simp
    | cons j rest ih =>
        cases m with
        | zero =>
            rw [List.take_zero, List.map_eq_nil_iff, List.filter_eq_nil_iff]
            intro e he
            have hge := List.le_snd_of_mem_zipIdx he
            simpa using hge
        | succ m =>
            have hsucc := ih (k + 1) m
            rw [Nat.add_assoc, Nat.add_comm 1 m] at hsucc
            simp [List.zipIdx_cons, hsucc]
  have hcontains : (fun e : Job × Nat => p.admitted.contains e.2) =
      fun e => decide (e.2 < 0 + n) := by
    funext e
    rw [Bool.eq_iff_iff]
    simp [h]
  rw [Progress.done, hcontains, htake]

theorem oneByOne_eq_byWorkers (token : Option Token) (others : Nat → List Token)
    (cancelled : List Token) (jobs : List Job) :
    (oneByOne token others 0 cancelled jobs).1 =
      (byWorkers token (inTurn others jobs) cancelled jobs).1 := by
  obtain ⟨n, hn, hrun, hplaces⟩ := oneByOne_inTurn_start token others cancelled jobs
  have hcovers := Progress.toRun_covers
    (Progress.after token jobs cancelled (inTurn others jobs)) jobs
  rw [Progress.done_eq_take hplaces] at hcovers
  rw [hrun]
  have hlength : (jobs.take n).length = n := by
    rw [List.length_take]
    omega
  have heq := hcovers.eq
  rw [hlength] at heq
  exact heq.symm

/-! ## Runs told by their readings -/

/-- The events of a run: those of the workers, or one job after the other. -/
def Surroundings.events (around : Surroundings) (o : RunOptions) (jobs : List Job) : List Event :=
  if o.parallel then around.schedule jobs else inTurn around.others jobs

theorem Progress.exists_reads {token : Option Token} {jobs : List Job} {cancelled : List Token}
    {events : List Event} {i : Nat} (h : .read i ∈ events) :
    ∃ stop, Reads token jobs cancelled events i stop := by
  obtain ⟨before, rest, rfl⟩ := List.append_of_mem h
  exact ⟨_, before, rest, rfl, rfl⟩

theorem read_mem_inTurn {others : Nat → List Token} {jobs : List Job} {i : Nat}
    (hi : i < jobs.length) : .read i ∈ inTurn others jobs := by
  have hmem : (jobs[i], i) ∈ jobs.zipIdx :=
    List.mem_zipIdx_iff_getElem?.2 (List.getElem?_eq_getElem hi)
  refine List.mem_flatMap.2 ⟨_, hmem, ?_⟩
  exact List.mem_append_right _ List.mem_cons_self

theorem cancel_notMem_inTurn {others : Nat → List Token} {t : Token}
    (h : ∀ place, t ∉ others place) (jobs : List Job) : .cancel t ∉ inTurn others jobs := by
  intro hmem
  obtain ⟨⟨j, i⟩, _, hturn⟩ := List.mem_flatMap.1 hmem
  exact h i (by simpa [turn] using hturn)

namespace Registry

/-- The resources that some check supports, in the order of the configuration. -/
def units (r : Registry) (c : Configuration) : List Resource :=
  c.resources.filter fun x => !(r.checksFor x.type).isEmpty

/-- In the course of a run a unit reads the token, and is told to stop or not to. -/
def Reads (r : Registry) (c : Configuration) (o : RunOptions) (around : Surroundings)
    (cancelled : List Token) (i : Nat) (stop : Bool) : Prop :=
  Progress.Reads o.token (r.jobs c) cancelled (around.events o (r.jobs c)) i stop

variable {r : Registry} {rs : List Resource} {c : Configuration} {o : RunOptions}
  {around : Surroundings} {cancelled : List Token}

theorem jobs_eq_map_units (r : Registry) (rs : List Resource) :
    r.jobs (.ofList rs) = (r.units (.ofList rs)).map fun x => ⟨x, r.checksFor x.type⟩ := by
  rw [units, ← map_resource_jobs, List.map_map]
  refine (List.map_id _).symm.trans (List.map_congr_left ?_)
  intro j hj
  obtain ⟨_, hchecks, _⟩ := checks_of_mem_jobs hj
  obtain ⟨resource, checks⟩ := j
  exact congrArg (Job.mk resource) hchecks

theorem length_jobs (r : Registry) (rs : List Resource) :
    (r.jobs (.ofList rs)).length = (r.units (.ofList rs)).length := by
  rw [jobs_eq_map_units, List.length_map]

theorem run_eq_toRun :
    (r.run c o around cancelled).1 =
      (Progress.after o.token (r.jobs c) cancelled (around.events o (r.jobs c))).toRun
        (r.jobs c) := by
  unfold Registry.run Surroundings.events
  cases o.parallel with
  | true => rfl
  | false => exact oneByOne_eq_byWorkers o.token around.others cancelled (r.jobs c)

theorem run_covers (r : Registry) (c : Configuration) (o : RunOptions) (around : Surroundings)
    (cancelled : List Token) :
    ∃ done, (r.run c o around cancelled).1.Covers done (r.jobs c) := by
  rw [run_eq_toRun]
  exact ⟨_, Progress.toRun_covers _ _⟩

/-- Where no reading finds the token cancelled, all jobs are done. -/
theorem run_eq_of_not_reads (hreaches : o.parallel = true → around.Reaches (r.jobs c))
    (hfree : ∀ i, ¬ r.Reads c o around cancelled i true) :
    (r.run c o around cancelled).1 =
      ⟨(r.jobs c).flatMap Job.findings, (r.jobs c).length, false⟩ := by
  have hread : ∀ i < (r.jobs c).length, .read i ∈ around.events o (r.jobs c) := by
    intro i hi
    unfold Surroundings.events
    cases hparallel : o.parallel with
    | true => exact hreaches hparallel i hi
    | false => exact read_mem_inTurn hi
  have hall : ∀ i < (r.jobs c).length,
      i ∈ (Progress.after o.token (r.jobs c) cancelled (around.events o (r.jobs c))).admitted := by
    intro i hi
    rw [Progress.mem_admitted_after_iff]
    obtain ⟨stop, hstop⟩ := Progress.exists_reads (hread i hi)
    cases stop with
    | true => exact absurd hstop (hfree i)
    | false => exact hstop
  have hcovers := Progress.toRun_covers
    (Progress.after o.token (r.jobs c) cancelled (around.events o (r.jobs c))) (r.jobs c)
  rw [Progress.done_eq_of_all hall, ← run_eq_toRun] at hcovers
  exact hcovers.eq_of_all

theorem not_reads_of_undisturbed (h : Undisturbed o around cancelled (r.jobs c)) (i : Nat) :
    ¬ r.Reads c o around cancelled i true := by
  rintro ⟨before, rest, hevents, hstop⟩
  obtain ⟨t, ht, hmem⟩ := mustStop_eq_true_iff.1 hstop
  have hfree : .cancel t ∉ around.events o (r.jobs c) := by
    unfold Surroundings.events
    cases o.parallel with
    | true => exact h.workers t ht
    | false => exact cancel_notMem_inTurn (h.others t ht) _
  have hbefore : .cancel t ∉ before := fun hin => hfree (hevents ▸ List.mem_append_left _ hin)
  exact Progress.not_mem_cancelled_foldl (h.before t ht) (h.checks t ht) hbefore hmem

/-- Undisturbed, a run does every job. -/
theorem run_eq_of_undisturbed (h : Undisturbed o around cancelled (r.jobs c))
    (hreaches : o.parallel = true → around.Reaches (r.jobs c)) :
    (r.run c o around cancelled).1 =
      ⟨(r.jobs c).flatMap Job.findings, (r.jobs c).length, false⟩ :=
  run_eq_of_not_reads hreaches (not_reads_of_undisturbed h)

end Registry

/-! ## What a run evaluates -/

/-- A run made of the units at some places, whole and in order, and partial if that is not all. -/
structure Run.Evaluates (run : Run) (r : Registry) (c : Configuration) (places : Finset Nat) :
    Prop where
  inRange : places ⊆ Finset.range (r.units c).length
  findings : run.findings = ((r.units c).zipIdx.filter fun e => e.2 ∈ places).flatMap fun e =>
    (r.checksFor e.1.type).map fun check => check.judge e.1
  evaluated : run.evaluated = places.card
  bounded : run.evaluated ≤ (r.units c).length
  isPartial : run.isPartial = true ↔ places ≠ Finset.range (r.units c).length

/-- A condition on places holds as often below a bound as beside the elements of a list. -/
theorem length_filter_zipIdx {α : Type} (p : Nat → Prop) [DecidablePred p] (l : List α) :
    (l.zipIdx.filter fun e => p e.2).length = ((Finset.range l.length).filter p).card := by
  have hsnd : (l.zipIdx.filter fun e => p e.2).map (·.2) =
      (List.range l.length).filter fun i => p i := by
    rw [List.range_eq_range', ← List.zipIdx_map_snd, List.filter_map]
    rfl
  rw [← List.length_map, hsnd]
  rfl

theorem Progress.toRun_evaluates (p : Progress) (r : Registry) (rs : List Resource) :
    (p.toRun (r.jobs (.ofList rs))).Evaluates r (.ofList rs)
      ((Finset.range (r.units (.ofList rs)).length).filter (· ∈ p.admitted)) := by
  have hcovers := p.toRun_covers (r.jobs (.ofList rs))
  have hevaluated : (p.toRun (r.jobs (.ofList rs))).evaluated =
      ((Finset.range (r.units (.ofList rs)).length).filter (· ∈ p.admitted)).card := by
    rw [hcovers.evaluated, Progress.done, List.length_map, ← r.length_jobs rs,
      ← length_filter_zipIdx (· ∈ p.admitted)]
    simp only [List.contains_eq_mem]
  have hbounded := Finset.card_filter_le (Finset.range (r.units (.ofList rs)).length)
    (· ∈ p.admitted)
  rw [Finset.card_range] at hbounded
  refine ⟨Finset.filter_subset _ _, ?_, hevaluated, hevaluated ▸ hbounded, ?_⟩
  · have hplaces : ((r.units (.ofList rs)).zipIdx.filter fun e =>
        e.2 ∈ (Finset.range (r.units (.ofList rs)).length).filter (· ∈ p.admitted)) =
        (r.units (.ofList rs)).zipIdx.filter fun e => p.admitted.contains e.2 := by
      apply List.filter_congr
      intro e he
      have hlt := List.snd_lt_of_mem_zipIdx he
      simpa using fun _ => hlt
    rw [hcovers.findings, Progress.done, r.jobs_eq_map_units, List.zipIdx_map, List.filter_map,
      List.map_map, List.flatMap_map, hplaces]
    rfl
  · have hlength := hcovers.evaluated
    rw [hcovers.isPartial, ← hlength, hevaluated, r.length_jobs rs]
    constructor
    · intro hlt heq
      rw [heq, Finset.card_range] at hlt
      exact Nat.lt_irrefl _ hlt
    · intro hne
      refine Nat.lt_of_le_of_ne hbounded fun hcard => hne ?_
      refine Finset.eq_of_subset_of_card_le (Finset.filter_subset _ _) ?_
      rw [Finset.card_range, hcard]

/-- Whoever works, and whoever cancels what at which moment, the units that found the token
uncancelled are evaluated and no others: the first few where they are done one by one, none where
the token was cancelled before the run, and where none found it cancelled all of them, with the
same result in both modes. -/
theorem Registry.run_evaluates (r : Registry) (rs : List Resource) (o : RunOptions)
    (around : Surroundings) (cancelled : List Token) :
    ∃ places : Finset Nat,
      (r.run (.ofList rs) o around cancelled).1.Evaluates r (.ofList rs) places ∧
      (∀ i < (r.units (.ofList rs)).length,
        i ∈ places ↔ r.Reads (.ofList rs) o around cancelled i false) ∧
      (o.parallel = false → ∃ n, places = Finset.range n) ∧
      ((∃ t ∈ o.token, t ∈ cancelled) → places = ∅) ∧
      ((o.parallel = true → around.Reaches (r.jobs (.ofList rs))) →
        (∀ i, ¬ r.Reads (.ofList rs) o around cancelled i true) →
        ∀ o' around' cancelled', o'.parallel = false →
          (∀ i, ¬ r.Reads (.ofList rs) o' around' cancelled' i true) →
          (r.run (.ofList rs) o around cancelled).1 =
            (r.run (.ofList rs) o' around' cancelled').1) := by
  have hevaluates := Progress.toRun_evaluates (Progress.after o.token (r.jobs (.ofList rs))
    cancelled (around.events o (r.jobs (.ofList rs)))) r rs
  rw [← run_eq_toRun] at hevaluates
  refine ⟨_, hevaluates, fun i hi => ?_, fun hparallel => ?_, fun hbefore => ?_,
    fun hreaches hfree o' around' cancelled' hparallel' hfree' => ?_⟩
  · rw [Finset.mem_filter, Finset.mem_range, Progress.mem_admitted_after_iff]
    exact and_iff_right hi
  · obtain ⟨n, hn, _, hplaces⟩ :=
      oneByOne_inTurn_start o.token around.others cancelled (r.jobs (.ofList rs))
    refine ⟨n, Finset.ext fun i => ?_⟩
    rw [Finset.mem_filter, Finset.mem_range, Finset.mem_range, Surroundings.events, hparallel,
      if_neg Bool.false_ne_true, hplaces]
    rw [r.length_jobs] at hn
    omega
  · refine Finset.filter_eq_empty_iff.2 fun i _ => ?_
    rw [Progress.after, Progress.admitted_foldl_of_mustStop _ (mustStop_eq_true_iff.2 hbefore)]
    exact List.not_mem_nil
  · rw [run_eq_of_not_reads hreaches hfree,
      run_eq_of_not_reads (fun h => absurd (hparallel'.symm.trans h) Bool.false_ne_true) hfree']

/-- Three workers, of whom the second cancels token 0 while the first has not looked yet. A run that
honours token 1 instead brings what a run one by one brings. -/
theorem Registry.run_evaluates_overtaking :
    let trip : Check :=
      ⟨.of "A" "a" [] ["vm"], fun _ => .verdict .passed, fun x => if x.name = "b" then [0] else []⟩
    let r := afterCalls [.register trip]
    let rs : List Resource := ["a", "b", "c"].map fun name => ⟨"vm", name, .attributes .empty⟩
    let around : Surroundings :=
      ⟨fun _ => [], fun _ => [.read 2, .read 1, .judge 1 0, .read 0, .judge 0 0, .judge 2 0]⟩
    let run (token : Token) := (r.run (.ofList rs) ⟨true, some token⟩ around []).1
    (run 0).Evaluates r (.ofList rs) {1, 2} ∧
      run 1 = (r.run (.ofList rs) ⟨false, none⟩ .quiet []).1 := by
  intro trip r rs around run
  constructor
  · obtain ⟨places, hevaluates, hplaces, -⟩ := run_evaluates r rs ⟨true, some 0⟩ around []
    have hmem (i : Nat) (hi : i < 3) : i ∈ places ↔ i ∈ [1, 2] := by
      rw [hplaces i hi, Reads, ← Progress.mem_admitted_after_iff]
      match i, hi with
      | 0, _ => decide +kernel
      | 1, _ => decide +kernel
      | 2, _ => decide +kernel
    have heq : places = {1, 2} := by
      ext i
      by_cases hi : i < 3
      · rw [hmem i hi]
        simp
      · have hout : i ∉ places := fun h => hi (Finset.mem_range.1 (hevaluates.inRange h))
        simp only [hout, Finset.mem_insert, Finset.mem_singleton, false_iff, not_or]
        omega
    exact heq ▸ hevaluates
  · obtain ⟨_, _, _, _, _, hsame⟩ := run_evaluates r rs ⟨true, some 1⟩ around []
    refine hsame (fun _ i hi => ?_) (fun i => ?_) ⟨false, none⟩ .quiet [] rfl (fun i => ?_)
    · have hlt : i < 3 := hi
      match i, hlt with
      | 0, _ => decide
      | 1, _ => decide
      | 2, _ => decide
    · exact Progress.not_reads_of_not_mustStop (by decide +kernel) i
    · exact Progress.not_reads_of_not_mustStop rfl i

end ResourceAudit
