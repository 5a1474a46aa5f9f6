import ResourceAudit.Decode
import ResourceAudit.Settings
import ResourceAudit.Text.Blank
import ResourceAudit.Toml.Reader

/-!
# Settings from TOML

The entries of a table are read in their order; one that no setting knows is passed over. What is
said about a check is a table, or a list with its only field in front. A date counts as a table
without a field. A text with a number out of reach gives settings as long as nothing asks for that
number; where it gives none, it counts as malformed.
-/

namespace ResourceAudit

/-- Why a text gives no settings. -/
inductive Settings.TextError where
  | malformed
  | wrongType (error : DecodeError)
deriving DecidableEq, Repr

namespace Toml

/-! ## Numbers out of reach -/

/-- Whether a number is in reach: an integer from `least` up to `bound`, a float near a double. -/
def isWithin (least bound : Int) : Toml → Bool
  | integer n => least ≤ n && n < bound
  | float f => f.isSome
  | _ => true

def negativeWords : Int := UInt64.size / 2

/-- Whether a number can be asked for: an integer has 64 bits and a sign. -/
def isRegular : Toml → Bool := isWithin (-negativeWords) negativeWords

/-- Whether a number can be passed over: an integer has 128 bits, with a sign or without one. -/
def isPassable : Toml → Bool :=
  isWithin (-(UInt64.size * negativeWords)) (UInt64.size * UInt64.size)

/-! ## Values in messages -/

/-- A float in a message, never with an exponent. -/
def floatText (f : Float) : String :=
  if f.isNaN then "NaN"
  else if f.isInf then if f < 0.0 then "-inf" else "inf"
  else String.ofList (Decimal.Layout.positional.double f)

/-- What a value is, for a message. -/
def found : Toml → Found
  | string s => .string s
  | integer n => .integer n
  | float f => .float (f.elim "inf" floatText)
  | boolean b => .boolean b
  | moment _ => .map
  | list _ => .sequence
  | table _ => .map

/-- The error of a value that stands where something else is expected. -/
def mismatch (value : Toml) (expected : Expected) : Settings.TextError :=
  .wrongType (.type value.found expected)

/-! ## Scalars -/

def decodeString : Toml → Except Settings.TextError String
  | string s => .ok s
  | other => .error (other.mismatch .string)

def decodeBoolean : Toml → Except Settings.TextError Bool
  | boolean b => .ok b
  | other => .error (other.mismatch .boolean)

/-- Keeps what was read so far and passes over a value. -/
def passOver {α : Type} (value : Toml) (soFar : α) : Except Settings.TextError α :=
  if value.all isPassable then .ok soFar else .error .malformed

end Toml

/-! ## Settings -/

namespace CheckSettings

def decodeEntry (c : CheckSettings) : String × Toml → Except Settings.TextError CheckSettings
  | ("enabled", value) => value.decodeBoolean.map fun b => { c with enabled := some b }
  | (_, value) => value.passOver c

def decode : Toml → Except Settings.TextError CheckSettings
  | .table entries => entries.foldlM decodeEntry ⟨none⟩
  | .list [] => .ok ⟨none⟩
  | .list (first :: _) => first.decodeBoolean.map fun b => ⟨some b⟩
  | .moment _ => .ok ⟨none⟩
  | other => .error (other.mismatch (.record "CheckConfig"))

end CheckSettings

namespace Settings

def decodeChecks : Toml → Except TextError (Dictionary CheckSettings)
  | .table entries =>
    entries.foldlM (fun d e => (CheckSettings.decode e.2).map (d.insert e.1 ·)) .empty
  | .moment text => .error (.wrongType (.type (.string text) (.record "CheckConfig")))
  | other => .error (other.mismatch .map)

def decodeEntry (s : Settings) : String × Toml → Except TextError Settings
  | ("schema", value) => value.decodeString.map fun t => { s with schema := some t }
  | ("profile", value) => value.decodeString.map fun t => { s with profile := some t }
  | ("parallel", value) => value.decodeBoolean.map fun b => { s with parallel := some b }
  | ("checks", value) => (decodeChecks value).map fun d => { s with checks := d }
  | (_, value) => value.passOver s

def decode (entries : List (String × Toml)) : Except TextError Settings :=
  match entries.foldlM decodeEntry unset with
  | .ok s => .ok s
  | .error e => .error (if Toml.allEntries Toml.isRegular entries then e else .malformed)

/-! ## Texts -/

def parse (text : String) : Except TextError Settings :=
  match Toml.parse text with
  | none => .error .malformed
  | some entries => decode entries

/-- The settings of a file, in which nothing at all may stand. -/
def parseFile (text : String) : Except TextError Settings :=
  if Text.isBlankText text then .ok unset else parse text

end Settings

end ResourceAudit
