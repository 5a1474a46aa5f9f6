import ResourceAudit.Check.Builtin

/-!
# Explanations

What each built-in check asks for, why, and how to meet it. Explanations are there for every
known check, whether or not a build contains it.
-/

namespace ResourceAudit

/-- The explanation of a check, with a resource that fails it and one that passes. -/
structure Explanation where
  title : String
  description : String
  remediation : String
  failing : String
  passing : String
deriving DecidableEq, Repr

namespace Explanation

def paragraph (lines : List String) : String := "\n".intercalate lines

def instanceProfile : Explanation where
  title := "EC2 Instance Profile Attached"
  description := paragraph
    ["Requires every `aws_instance` to declare a non-empty `iam_instance_profile`.",
      "",
      "Instances without a profile either run with no AWS identity at all or fall back to",
      "long-lived credentials baked into the image or user data. Both are hard to rotate",
      "and hard to audit.",
      "",
      "The check tests presence only. `null`, `false`, `0`, `\"\"`, `\x7b\x7d` and lists holding",
      "only such values (`[]`, `[\"\"]`, `[null]`) count as missing."]
  remediation := paragraph
    ["Create an `aws_iam_instance_profile` wrapping a least-privilege role and reference it",
      "from the instance."]
  failing := paragraph
    ["resource \"aws_instance\" \"web\" \x7b",
      "  ami           = \"ami-123456\"",
      "  instance_type = \"t3.micro\"",
      "\x7d"]
  passing := paragraph
    ["resource \"aws_instance\" \"web\" \x7b",
      "  ami                  = \"ami-123456\"",
      "  instance_type        = \"t3.micro\"",
      "  iam_instance_profile = aws_iam_instance_profile.web.name",
      "\x7d"]

def privateSubnet : Explanation where
  title := "EC2 Instance In Private Subnet"
  description := paragraph
    ["Requires every `aws_instance` to be placed in a subnet whose identifier marks it as",
      "private (contains `private`, case-sensitive).",
      "",
      "Instances in public subnets are one security group mistake away from being reachable",
      "from the internet. A missing `subnet_id` fails the check: the default VPC placement",
      "is public. So does a structured value such as an object, which names no subnet."]
  remediation := paragraph
    ["Set `subnet_id` to a private subnet and reach the instance through a load balancer,",
      "bastion or SSM session instead."]
  failing := paragraph
    ["resource \"aws_instance\" \"web\" \x7b",
      "  subnet_id = \"subnet-public-a\"",
      "\x7d"]
  passing := paragraph
    ["resource \"aws_instance\" \"web\" \x7b",
      "  subnet_id = aws_subnet.private_a.id  # subnet-private-a",
      "\x7d"]

def groupDescription : Explanation where
  title := "Security Group Description"
  description := paragraph
    ["Requires every `aws_security_group` to carry a meaningful `description`.",
      "",
      "The provider injects `Managed by Terraform` when no description is written. That",
      "value is treated the same as a missing description: it says nothing about what",
      "traffic the group is meant to allow."]
  remediation := paragraph
    ["Describe the purpose of the group. Note that changing a security group description",
      "forces replacement of the group."]
  failing := paragraph
    ["resource \"aws_security_group\" \"sg1\" \x7b",
      "  name = \"internal\"",
      "\x7d"]
  passing := paragraph
    ["resource \"aws_security_group\" \"sg1\" \x7b",
      "  name        = \"internal\"",
      "  description = \"allow internal traffic\"",
      "\x7d"]

/-- The explanations of the known checks, by id. -/
def all : List (String × Explanation) :=
  [(Builtin.instanceProfile.id, instanceProfile), (Builtin.privateSubnet.id, privateSubnet),
    (Builtin.groupDescription.id, groupDescription)]

def of? (id : String) : Option Explanation := all.lookup id

/-! ## Texts -/

/-- A heading, underlined. -/
def heading (title : String) (line : Char) : String :=
  title ++ "\n" ++ String.ofList (List.replicate title.utf8ByteSize line) ++ "\n"

def sample (label body : String) : String := label ++ "\n```hcl\n" ++ body ++ "\n```\n"

def text (e : Explanation) : String :=
  heading e.title '=' ++ "\n" ++ e.description ++ "\n\n" ++
  heading "Remediation" '-' ++ e.remediation ++ "\n\n" ++
  heading "Examples" '-' ++ "\n" ++
  sample "Before (violation):" e.failing ++ "\n" ++ sample "After (fixed):" e.passing

def unknownText (id : String) : String :=
  s!"Unknown check id: {id}\n\nAvailable check ids:\n" ++
    String.join (Builtin.knownIds.map fun known => s!"  - {known}\n")

/-! ## Coverage -/

/-- The parts of an explanation, by name. -/
def parts (e : Explanation) : List (String × String) :=
  [("title", e.title), ("description", e.description), ("remediation", e.remediation),
    ("before example", e.failing), ("after example", e.passing)]

def gapsOf (id : String) : List String :=
  match of? id with
  | none => [s!"Check ID '{id}' has no explanation"]
  | some e =>
    (e.parts.filter fun p => Text.isBlankText p.2).map fun (field, _) =>
      s!"Check ID '{id}' has empty {field}"

/-- What is missing in the explanations of all known checks. -/
def gaps : List String := Builtin.knownIds.flatMap gapsOf

end Explanation

end ResourceAudit
