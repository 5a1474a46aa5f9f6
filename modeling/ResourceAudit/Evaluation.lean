import ResourceAudit.Configuration
import ResourceAudit.Registry

/-!
# Evaluation

A run judges every resource that some check supports. It works on one resource at a time, or
leaves resources to workers that read, judge and are interrupted in any order. Between resources
it honours a token: a resource reached after the token was cancelled is not judged, and the run
is partial.
-/

namespace ResourceAudit

/-! ## Jobs -/

/-- A resource and the checks that support its type, at least one. -/
structure Job where
  resource : Resource
  checks : List Check

namespace Job

def findings (j : Job) : List Finding := j.checks.map (·.judge j.resource)

def tripped (j : Job) : List Token := j.checks.flatMap (·.tripped j.resource)

end Job

/-! ## Rosters -/

/-- The checks that a configuration calls for, one list for each type that has any, and its
resources, each with the place of its list. -/
structure Roster where
  lists : List (List Check)
  entries : List (Resource × Nat)
  inRange : ∀ e ∈ entries, e.2 < lists.length

namespace Roster

def empty : Roster := ⟨[], [], by simp⟩

/-- Adds a list of checks, and resources at its place. -/
def add (s : Roster) (checks : List Check) (resources : List Resource) : Roster where
  lists := s.lists ++ [checks]
  entries := s.entries ++ resources.map (·, s.lists.length)
  inRange := by
    intro e he
    rw [List.length_append, List.length_singleton]
    rcases List.mem_append.1 he with he | he
    · exact Nat.lt_succ_of_lt (s.inRange e he)
    · obtain ⟨r, _, rfl⟩ := List.mem_map.1 he
      exact Nat.lt_succ_self _

/-- Enters a group. A type that no check supports is left out. -/
def enter (r : Registry) (s : Roster) (g : Group) : Roster :=
  match r.checksFor g.type with
  | [] => s
  | checks => s.add checks g.resources

/-- The jobs of a roster, in the order of its entries. -/
def jobs (s : Roster) : List Job :=
  s.entries.pmap (fun e h => ⟨e.1, s.lists[e.2]⟩) s.inRange

end Roster

def Registry.roster (r : Registry) (c : Configuration) : Roster :=
  c.groups.foldl (Roster.enter r) .empty

/-- The jobs of a configuration, in its order. -/
def Registry.jobs (r : Registry) (c : Configuration) : List Job := (r.roster c).jobs

/-! ## Runs -/

/-- What a run brought: findings in the order of the jobs, how many jobs were done, and whether
some were not. -/
structure Run where
  findings : List Finding
  evaluated : Nat
  isPartial : Bool
deriving DecidableEq, Repr

namespace Run

def empty : Run := ⟨[], 0, false⟩

def withJob (j : Job) (run : Run) : Run :=
  { run with findings := j.findings ++ run.findings, evaluated := run.evaluated + 1 }

/-- Takes in what a worker brought for a job, or that it brought nothing. -/
def take : Option (List Finding) → Run → Run
  | some findings, run =>
    { run with findings := findings ++ run.findings, evaluated := run.evaluated + 1 }
  | none, run => { run with isPartial := true }

end Run

/-- Whether a run that honours this token has to stop; one without a token never has to. -/
def mustStop (token : Option Token) (cancelled : List Token) : Bool :=
  token.any cancelled.contains

/-! ## One by one -/

/-- Does jobs one by one up to the first that is reached with the token cancelled. Before the job
at each place, others may cancel tokens. Gives the run and the tokens cancelled by its end. -/
def oneByOne (token : Option Token) (others : Nat → List Token) (place : Nat)
    (cancelled : List Token) : List Job → Run × List Token
  | [] => (.empty, cancelled)
  | j :: rest =>
    let cancelled := others place ++ cancelled
    if mustStop token cancelled then ({ Run.empty with isPartial := true }, cancelled)
    else
      let (run, final) := oneByOne token others (place + 1) (j.tripped ++ cancelled) rest
      (run.withJob j, final)

/-! ## Workers -/

/-- What can happen while workers share the jobs: one reads the token for a job, one asks a check
of a job, or somebody cancels a token. -/
inductive Event where
  | read (job : Nat)
  | judge (job check : Nat)
  | cancel (token : Token)
deriving DecidableEq, Repr

/-- How far the workers are: the tokens cancelled, and the jobs that were found free to go. -/
structure Progress where
  cancelled : List Token
  admitted : List Nat
deriving DecidableEq, Repr

namespace Progress

/-- One event. A job whose token was cancelled when it was read is left alone. -/
def step (token : Option Token) (jobs : List Job) (p : Progress) : Event → Progress
  | .read i =>
    if mustStop token p.cancelled then p else { p with admitted := i :: p.admitted }
  | .judge i k =>
    if p.admitted.contains i then
      let trips := do
        let j ← jobs[i]?
        let c ← j.checks[k]?
        return c.tripped j.resource
      { p with cancelled := trips.getD [] ++ p.cancelled }
    else p
  | .cancel t => { p with cancelled := t :: p.cancelled }

/-- What the workers brought for each job, in the order of the jobs: nothing for one left alone. -/
def brought (jobs : List Job) (p : Progress) : List (Option (List Finding)) :=
  jobs.zipIdx.map fun (j, i) => if p.admitted.contains i then some j.findings else none

/-- The run made of what the workers brought. -/
def toRun (jobs : List Job) (p : Progress) : Run := (p.brought jobs).foldr Run.take .empty

end Progress

/-- The schedule of workers that never overtake each other and are left in peace. -/
def inOrder (jobs : List Job) : List Event :=
  jobs.zipIdx.flatMap fun (j, i) => .read i :: (List.range j.checks.length).map (.judge i ·)

def byWorkers (token : Option Token) (schedule : List Event) (cancelled : List Token)
    (jobs : List Job) : Run × List Token :=
  let p := schedule.foldl (Progress.step token jobs) ⟨cancelled, []⟩
  (p.toRun jobs, p.cancelled)

/-! ## Evaluating a configuration -/

/-- How to run: by workers or one by one, and which token to honour. -/
structure RunOptions where
  parallel : Bool
  token : Option Token
deriving DecidableEq, Repr

/-- What goes on around a run: the tokens that others cancel before each place of a run one by
one, and the schedule of workers. -/
structure Surroundings where
  others : Nat → List Token
  schedule : List Job → List Event

def Surroundings.quiet : Surroundings := ⟨fun _ => [], inOrder⟩

/-- Runs the checks of a registry on a configuration, with some tokens cancelled beforehand. -/
def Registry.run (r : Registry) (c : Configuration) (o : RunOptions) (around : Surroundings)
    (cancelled : List Token) : Run × List Token :=
  let jobs := r.jobs c
  if o.parallel then byWorkers o.token (around.schedule jobs) cancelled jobs
  else oneByOne o.token around.others 0 cancelled jobs

def Run.summary (run : Run) : Summary :=
  { Summary.ofFindings run.findings with isPartial := run.isPartial }

end ResourceAudit
