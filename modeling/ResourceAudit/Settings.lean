import ResourceAudit.Check.Builtin
import ResourceAudit.Json.Basic
import ResourceAudit.Registry

/-!
# Settings

Settings choose a profile, overrule it for single checks, and may be overruled in turn by who
starts a run. A build can only run the checks that it contains: to ask for another is an error,
to switch another off is not.
-/

namespace ResourceAudit

/-! ## Settings and overrides -/

/-- What settings say about one check. -/
structure CheckSettings where
  enabled : Option Bool
deriving DecidableEq, Repr

/-- The settings of a configuration file. -/
structure Settings where
  schema : Option String
  profile : Option String
  parallel : Option Bool
  checks : Dictionary CheckSettings
deriving DecidableEq, Repr

/-- What is asked for at the start of a run, over the settings. -/
structure Overrides where
  profile : Option String
  parallel : Option Bool
deriving DecidableEq, Repr

namespace Settings

def unset : Settings := ⟨none, none, none, .empty⟩

def schemaId : String := "iacguard.config.v1"

end Settings

/-! ## Profiles -/

/-- What every check starts from. -/
inductive Profile where
  | strict
  | none
deriving DecidableEq, Repr

namespace Profile

def name : Profile → String
  | strict => "strict"
  | none => "none"

def ofName? (name : String) : Option Profile := [strict, none].find? fun p => p.name = name

/-- Whether checks are on as long as nothing else is said. -/
def enables : Profile → Bool
  | strict => true
  | none => false

end Profile

/-! ## Plans -/

/-- Settings with every choice made: which of the known checks run, and how. -/
structure Plan where
  profile : String
  parallel : Bool
  checks : Dictionary Bool
deriving DecidableEq, Repr

namespace Plan

def isEnabled (p : Plan) (id : String) : Bool := (p.checks.get? id).getD false

def ofProfile (b : Build) (p : Profile) : Plan where
  profile := p.name
  parallel := false
  checks := .ofList (b.checkIds.map fun id => (id, p.enables))

/-- The registry of the checks of a build that a plan enables. -/
def registry (p : Plan) (b : Build) : Except RegistryError Registry :=
  (Registry.empty.registerAll (b.checks.filter fun c => p.isEnabled c.id)).map Registry.freeze

end Plan

/-! ## Resolution -/

/-- Why settings give no plan. -/
inductive SettingsError where
  | schema (found : String)
  | profile (found : String)
  | unknownCheck (id : String)
  | absentCheck (id : String)
deriving DecidableEq, Repr

def SettingsError.message : SettingsError → String
  | schema found => s!"unsupported config schema: {found} (expected {Settings.schemaId})"
  | profile found => s!"unknown profile: {found} (expected 'strict' or 'none')"
  | unknownCheck id => s!"unknown check id in config: {id}"
  | absentCheck id =>
    s!"check {id} is not compiled into this build; enable its cargo feature or set enabled = false"

namespace Settings

/-- Applies what settings say about one check to a plan. -/
def applyCheck (p : Plan) (id : String) (c : CheckSettings) : Except SettingsError Plan :=
  if (p.checks.get? id).isSome then
    match c.enabled with
    | some enabled => .ok { p with checks := p.checks.insert id enabled }
    | none => .ok p
  else if !Builtin.knownIds.contains id then .error (.unknownCheck id)
  else if c.enabled ≠ some false then .error (.absentCheck id)
  else .ok p

/-- The profile in force: the one asked for, else the one set, else `strict`. -/
def profileName (s : Settings) (o : Overrides) : String :=
  (o.profile <|> s.profile).getD Profile.strict.name

def checkSchema (s : Settings) : Except SettingsError Unit :=
  match s.schema with
  | none => .ok ()
  | some found => if found = schemaId then .ok () else .error (.schema found)

def startingPlan (b : Build) (s : Settings) (o : Overrides) : Except SettingsError Plan :=
  match Profile.ofName? (s.profileName o) with
  | none => .error (.profile (s.profileName o))
  | some p => .ok { Plan.ofProfile b p with parallel := (o.parallel <|> s.parallel).getD false }

/-- The plan of settings under overrides, for a build. Checks are looked at in the order of their
ids. -/
def resolve (b : Build) (s : Settings) (o : Overrides) : Except SettingsError Plan := do
  s.checkSchema
  let plan ← s.startingPlan b o
  s.checks.entries.foldlM (fun p e => applyCheck p e.1 e.2) plan

end Settings

/-! ## Encoding -/

def CheckSettings.toJson (c : CheckSettings) : Json :=
  .object (Json.optionalMember "enabled" .bool c.enabled)

def Settings.toJson (s : Settings) : Json :=
  .object <|
    Json.optionalMember "schema" .string s.schema ++
    Json.optionalMember "profile" .string s.profile ++
    Json.optionalMember "parallel" .bool s.parallel ++
    [("checks", .object (s.checks.entries.map fun (id, c) => (id, c.toJson)))]

end ResourceAudit
