import ResourceAudit.Registry
import ResourceAudit.Text.Quoted

/-!
# Inspection

How checks and registries show themselves in logs: a record is its name and its fields, a text is
quoted so that every character can be told apart.
-/

namespace ResourceAudit

namespace Inspection

/-- A record: its name, and each field with its value. -/
def record (name : String) (fields : List (String × String)) : String :=
  name ++ " \x7b " ++ ", ".intercalate (fields.map fun (field, value) => s!"{field}: {value}") ++
    " \x7d"

def list (items : List String) : String := "[" ++ ", ".intercalate items ++ "]"

end Inspection

open Inspection

def Category.inspect : Category → String
  | networking => "Networking"
  | iam => "Iam"
  | encryption => "Encryption"
  | logging => "Logging"
  | generalSecurity => "GeneralSecurity"
  | backupAndRecovery => "BackupAndRecovery"
  | convention => "Convention"

def CheckInfo.inspect (i : CheckInfo) : String :=
  record "CheckMeta"
    [("id", Text.quote i.id), ("name", Text.quote i.name),
      ("categories", list (i.categories.map (·.inspect))),
      ("supported_resources", list (i.resourceTypes.map Text.quote))]

/-- A check shows what it is known by; its predicate cannot be shown. -/
def Check.inspect (c : Check) : String := record "FnCheck" [("meta", c.info.inspect)]

def Registry.inspect (r : Registry) : String :=
  record "CheckRegistry"
    [("checks", list (r.ids.map Text.quote)), ("frozen", if r.isFrozen then "true" else "false")]

end ResourceAudit
