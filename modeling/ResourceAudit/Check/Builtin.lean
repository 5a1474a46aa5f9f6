import ResourceAudit.Check
import ResourceAudit.Text.Blank

/-!
# Built-in checks

Three checks on resources of one provider. Each is fail-closed: what is missing, empty or left at
its default does not pass.
-/

namespace ResourceAudit

/-! ## Instances -/

def instanceType : String := "aws_instance"

def securityGroupType : String := "aws_security_group"

/-- Whether a number equals zero, of either sign. -/
def Number.isZero : Number → Bool
  | .int n => n == 0
  | .float f => f == 0.0

namespace Json

mutual
/-- A value that says no more than a missing one: null, false, zero, an empty string or object,
or a list of such values. -/
def isVoid : Json → Bool
  | null => true
  | bool b => !b
  | number n => n.isZero
  | string s => s.isEmpty
  | list items => areVoid items
  | object members => members.isEmpty
def areVoid : List Json → Bool
  | [] => true
  | j :: rest => isVoid j && areVoid rest
end

end Json

namespace Builtin

/-- Instances need a profile that grants them an identity. -/
def instanceProfile : Check :=
  .pure (.of "CUSTOM_AWS_1" "Ensure EC2 instance has an IAM instance profile attached"
      [.iam] [instanceType])
    fun r => .verdict <|
      match r.attribute? "iam_instance_profile" with
      | some value => if value.isVoid then .failed else .passed
      | none => .failed

/-- What the identifier of a private subnet contains. -/
def privateMarker : String := "private"

def occursIn (needle : List Char) : List Char → Bool
  | [] => needle.isEmpty
  | c :: rest => needle.isPrefixOf (c :: rest) || occursIn needle rest

/-- Instances belong into a private subnet. An object names no subnet. -/
def privateSubnet : Check :=
  .pure (.of "CUSTOM_AWS_2" "Ensure EC2 instance is deployed in a private subnet"
      [.networking] [instanceType])
    fun r =>
      match r.normalized "subnet_id" with
      | .absent => .verdict .failed
      | .scalar (.object _) => .fault (.attributeShape "subnet_id" "expected a subnet id string")
      | .scalar (.list _) => .fault (.attributeShape "subnet_id" "expected a subnet id string")
      | .scalar value =>
        let shown := (Normalized.scalar value).display
        .verdict (if occursIn privateMarker.toList shown.toList then .passed else .failed)

/-- Descriptions that were filled in because none was written. -/
def placeholderDescriptions : List String := ["Managed by Terraform"]

/-- Security groups need a description that somebody wrote. -/
def groupDescription : Check :=
  .pure (.of "CUSTOM_AWS_3" "Ensure every security group has a description"
      [.networking] [securityGroupType])
    fun r => .verdict <|
      match (r.normalized "description").string? with
      | none => .failed
      | some text =>
        let written := String.ofList (Text.trim text.toList)
        if written.isEmpty || placeholderDescriptions.contains written then .failed else .passed

/-- Every built-in check, in the order of the ids. -/
def checks : List Check := [instanceProfile, privateSubnet, groupDescription]

/-- The ids of every built-in check, whether or not a build contains it. -/
def knownIds : List String := checks.map (·.id)

end Builtin

/-! ## Builds -/

/-- Which built-in checks a build contains. -/
structure Build where
  instanceProfile : Bool
  privateSubnet : Bool
  groupDescription : Bool
deriving DecidableEq, Repr

namespace Build

def full : Build := ⟨true, true, true⟩

/-- The built-in checks of a build, in the order of the ids. -/
def checks (b : Build) : List Check :=
  (if b.instanceProfile then [Builtin.instanceProfile] else []) ++
  (if b.privateSubnet then [Builtin.privateSubnet] else []) ++
  (if b.groupDescription then [Builtin.groupDescription] else [])

def checkIds (b : Build) : List String := b.checks.map (·.id)

end Build

end ResourceAudit
