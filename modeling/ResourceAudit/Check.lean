import ResourceAudit.Finding
import ResourceAudit.Resource

/-!
# Checks

A check has an identity, the resource types it supports, categories, and a predicate on single
resources. A predicate may fail to reach a verdict; the finding is then a failed one with the
reason as its note.
-/

namespace ResourceAudit

/-! ## Predicates -/

/-- Why a predicate reached no verdict. -/
inductive Fault where
  | attributeShape (key detail : String)
  | malformed (reason : String)
  | brokenOff (message : String)
deriving DecidableEq, Repr

def Fault.message : Fault → String
  | attributeShape key detail => s!"attribute `{key}` has an unsupported shape: {detail}"
  | malformed reason => s!"resource is malformed: {reason}"
  | brokenOff message => s!"check panicked: {message}"

/-- How a predicate answers: by a verdict, by a fault of its own, or by breaking off, with or
without words. -/
inductive Answer where
  | verdict (verdict : Verdict)
  | fault (fault : Fault)
  | breaksOff (message : Option String)
deriving DecidableEq, Repr

/-- The verdict of an answer, or the fault. -/
def Answer.outcome : Answer → Except Fault Verdict
  | verdict v => .ok v
  | fault f => .error f
  | breaksOff message => .error (.brokenOff (message.getD "non-string panic payload"))

/-- A flag that asks running evaluations to stop, known by a number. -/
abbrev Token := Nat

/-! ## Checks -/

/-- What a check is known by. -/
structure CheckInfo where
  id : String
  name : String
  categories : List Category
  resourceTypes : List String
deriving DecidableEq, Repr

namespace CheckInfo

/-- The elements of a list in order, each where it first stands. -/
def distinct {α : Type} [BEq α] (xs : List α) : List α :=
  xs.foldl (fun acc x => if acc.contains x then acc else acc ++ [x]) []

/-- A check with these categories and resource types, each taken once. -/
def of (id name : String) (categories : List Category) (types : List String) : CheckInfo :=
  ⟨id, name, distinct categories, distinct types⟩

def supports (i : CheckInfo) (type : String) : Bool := i.resourceTypes.contains type

/-- The first category; a check without one counts as general security. -/
def category (i : CheckInfo) : Category := i.categories.headD .generalSecurity

end CheckInfo

/-- A check: what it is known by, its predicate, and the tokens that the predicate trips. -/
structure Check where
  info : CheckInfo
  predicate : Resource → Answer
  trips : Resource → List Token

namespace Check

/-- A check whose predicate only looks at the resource. -/
def pure (info : CheckInfo) (predicate : Resource → Answer) : Check :=
  ⟨info, predicate, fun _ => []⟩

def id (c : Check) : String := c.info.id

/-- The outcome on a resource. On a malformed one the predicate is not asked. -/
def outcome (c : Check) (r : Resource) : Except Fault Verdict :=
  match r.defect? with
  | some reason => .error (.malformed reason)
  | none => (c.predicate r).outcome

/-- The finding for a resource: a fault fails it and becomes the note. -/
def judge (c : Check) (r : Resource) : Finding :=
  let (verdict, note) := match c.outcome r with
    | .ok v => (v, none)
    | .error f => (.failed, some f.message)
  { checkId := c.info.id
    checkName := c.info.name
    resourceType := r.type
    resourceName := r.name
    verdict := verdict
    category := c.info.category
    note := note }

def tripped (c : Check) (r : Resource) : List Token :=
  if r.defect?.isSome then [] else c.trips r

end Check

end ResourceAudit
