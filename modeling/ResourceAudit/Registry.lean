import ResourceAudit.Check

/-!
# Registries

A registry is filled check by check and then frozen. It refuses a check when it is frozen, when
the check supports no resource type, or when the id is taken, in this order.
-/

namespace ResourceAudit

/-- Why a check was not registered. -/
inductive RegistryError where
  | frozen (id : String)
  | noResourceTypes (id : String)
  | duplicateId (id : String)
deriving DecidableEq, Repr

def RegistryError.message : RegistryError → String
  | frozen id => s!"registry is frozen; cannot register check `{id}`"
  | noResourceTypes id => s!"check `{id}` declares no supported resource types"
  | duplicateId id => s!"check id `{id}` is already registered"

/-- Checks in the order in which they were registered, and the place of each id among them. -/
structure Registry where
  checks : List Check
  places : Dictionary Nat
  isFrozen : Bool

namespace Registry

def empty : Registry := ⟨[], .empty, false⟩

/-- Offers a check: whether it is accepted, and the registry as it is then. -/
def offer (r : Registry) (c : Check) : Except RegistryError Unit × Registry :=
  if r.isFrozen then (.error (.frozen c.id), r)
  else if c.info.resourceTypes.isEmpty then (.error (.noResourceTypes c.id), r)
  else if (r.places.get? c.id).isSome then (.error (.duplicateId c.id), r)
  else
    (.ok (), { r with checks := r.checks ++ [c], places := r.places.insert c.id r.checks.length })

/-- The registry with one check more, if it is accepted. -/
def register (r : Registry) (c : Check) : Except RegistryError Registry :=
  (r.offer c).1.map fun _ => (r.offer c).2

/-- Registers checks in turn, up to the first that is refused. -/
def registerAll (r : Registry) (cs : List Check) : Except RegistryError Registry :=
  cs.foldlM register r

def freeze (r : Registry) : Registry := { r with isFrozen := true }

/-- The checks that support a type, in order. -/
def checksFor (r : Registry) (type : String) : List Check :=
  r.checks.filter (·.info.supports type)

def get? (r : Registry) (id : String) : Option Check := do r.checks[← r.places.get? id]?

def ids (r : Registry) : List String := r.checks.map (·.id)

def size (r : Registry) : Nat := r.checks.length

def isEmpty (r : Registry) : Bool := r.checks.isEmpty

end Registry

end ResourceAudit
