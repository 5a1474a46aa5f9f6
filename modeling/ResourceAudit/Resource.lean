import ResourceAudit.Dictionary
import ResourceAudit.Json.Writer

/-!
# Resources

A resource is one declared object of infrastructure. Its attributes are plain JSON values, or it
is malformed: declared in a way that leaves no attributes to read.
-/

namespace ResourceAudit

abbrev Attributes := Dictionary Json

/-- What a declaration gives for a resource. -/
inductive Body where
  | attributes (attributes : Attributes)
  | malformed (reason : String)
deriving Repr, BEq

/-- A declared resource. -/
structure Resource where
  type : String
  name : String
  body : Body
deriving Repr, BEq

namespace Resource

/-- Type and name, joined by a dot. -/
def address (r : Resource) : String := s!"{r.type}.{r.name}"

/-- The attributes; a malformed resource has none. -/
def attributes (r : Resource) : Attributes :=
  match r.body with
  | .attributes as => as
  | .malformed _ => .empty

def attribute? (r : Resource) (key : String) : Option Json := r.attributes.get? key

/-- Why the resource is malformed, if it is. -/
def defect? (r : Resource) : Option String :=
  match r.body with
  | .attributes _ => none
  | .malformed reason => some reason

end Resource

/-! ## Normalized attributes -/

/-- An attribute as checks read it. Whoever writes a single value inside a list, or an optional one
as an empty list, means the same as without the list. -/
inductive Normalized where
  | absent
  | scalar (value : Json)
deriving Repr, BEq

namespace Normalized

/-- The value where a descent along first items of lists ends. -/
def ofJson : Json → Normalized
  | .list [] => absent
  | .list (first :: _) => ofJson first
  | value => scalar value

def ofRaw : Option Json → Normalized
  | none => absent
  | some value => ofJson value

def isAbsent : Normalized → Bool
  | absent => true
  | scalar _ => false

def value? : Normalized → Option Json
  | absent => none
  | scalar value => some value

def string? : Normalized → Option String
  | scalar (.string s) => some s
  | _ => none

/-- A string as it is, another value as JSON text, and nothing for an absent attribute. -/
def display : Normalized → String
  | absent => ""
  | scalar (.string s) => s
  | scalar value => value.compact

def again : Normalized → Normalized
  | absent => absent
  | scalar value => ofJson value

end Normalized

/-- The attribute of a resource under a key, normalized. -/
def Resource.normalized (r : Resource) (key : String) : Normalized :=
  .ofRaw (r.attribute? key)

end ResourceAudit
