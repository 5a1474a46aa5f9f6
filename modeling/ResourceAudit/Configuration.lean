import ResourceAudit.Resource

/-!
# Configurations

A configuration holds resources grouped by type. Types stand in the order of their first
resource, the resources of a type in the order in which they came.
-/

namespace ResourceAudit

/-- The resources of one type. -/
structure Group where
  type : String
  resources : List Resource
deriving Repr, BEq

/-- Resources grouped by type. -/
structure Configuration where
  groups : List Group
deriving Repr, BEq

namespace Configuration

def empty : Configuration := ⟨[]⟩

/-- Adds a resource to the group of its type, or as a new group behind the others. -/
def pushTo (r : Resource) : List Group → List Group
  | [] => [⟨r.type, [r]⟩]
  | g :: rest =>
    if g.type = r.type then { g with resources := g.resources ++ [r] } :: rest
    else g :: pushTo r rest

def push (c : Configuration) (r : Resource) : Configuration := ⟨pushTo r c.groups⟩

def ofList (rs : List Resource) : Configuration := rs.foldl push empty

/-- All resources, group by group. -/
def resources (c : Configuration) : List Resource := c.groups.flatMap (·.resources)

def types (c : Configuration) : List String := c.groups.map (·.type)

/-- The resources of a type, in order. -/
def ofType (c : Configuration) (type : String) : List Resource :=
  match c.groups.find? fun g => g.type = type with
  | some g => g.resources
  | none => []

def typeCount (c : Configuration) : Nat := c.groups.length

def resourceCount (c : Configuration) : Nat := c.resources.length

def isEmpty (c : Configuration) : Bool := c.resourceCount == 0

end Configuration

end ResourceAudit
