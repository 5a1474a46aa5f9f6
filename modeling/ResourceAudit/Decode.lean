import ResourceAudit.Decimal.Layout
import ResourceAudit.Dictionary
import ResourceAudit.Json.Basic
import ResourceAudit.Text.Quoted
import ResourceAudit.Timestamp

/-!
# Decoding values

Decoders turn a JSON value into a value of the domain, or say what stands where something else
is expected. A record is an object, or a list of its fields in their order. Of several faults in
a record the first in document order counts, and a missing field only where there is none.
-/

namespace ResourceAudit

/-! ## Errors -/

/-- What stands in a place, content that a message does not show aside. -/
inductive Found where
  | null
  | boolean (value : Bool)
  | integer (value : Int)
  | float (text : String)
  | string (value : String)
  | sequence
  | map
deriving DecidableEq, Repr

def Found.phrase : Found → String
  | null => "null"
  | boolean b => s!"boolean `{b}`"
  | integer n => s!"integer `{n}`"
  | float text => s!"floating point `{text}`"
  | string s => s!"string {Text.quote s}"
  | sequence => "sequence"
  | map => "map"

/-- What a place is for. -/
inductive Expected where
  | string
  | boolean
  | word
  | sequence
  | map
  | record (name : String)
  | fields (name : String) (count : Nat)
  | fewer
  | tag
  | singleKey
  | unit
  | timestamp
deriving DecidableEq, Repr

def Expected.phrase : Expected → String
  | string => "a string"
  | boolean => "a boolean"
  | word => "u32"
  | sequence => "a sequence"
  | map => "a map"
  | record name => s!"struct {name}"
  | fields name count => s!"struct {name} with {count} elements"
  | fewer => "fewer elements in array"
  | tag => "string or map"
  | singleKey => "map with a single key"
  | unit => "unit"
  | timestamp => "an RFC3339-formatted `OffsetDateTime`"

/-- Why a value does not decode. -/
inductive DecodeError where
  | type (found : Found) (expected : Expected)
  | value (found : Found) (expected : Expected)
  | length (length : Nat) (expected : Expected)
  | missing (field : String)
  | variant (name : String) (known : List String)
  | timestamp (fault : Timestamp.Fault)
deriving DecidableEq, Repr

/-- The names that a tag may have: two are joined by a word, more are listed. -/
def knownPhrase (known : List String) : String :=
  match known.map fun k => s!"`{k}`" with
  | [a, b] => s!"{a} or {b}"
  | all => "one of " ++ ", ".intercalate all

def DecodeError.message : DecodeError → String
  | type found expected => s!"invalid type: {found.phrase}, expected {expected.phrase}"
  | value found expected => s!"invalid value: {found.phrase}, expected {expected.phrase}"
  | length n expected => s!"invalid length {n}, expected {expected.phrase}"
  | missing field => s!"missing field `{field}`"
  | variant name known => s!"unknown variant `{name}`, expected {knownPhrase known}"
  | timestamp fault => fault.message

/-- What a JSON value is, for a message. -/
def Json.found : Json → Found
  | null => .null
  | bool b => .boolean b
  | number (.int n) => .integer n
  | number (.float f) => .float (String.ofList (Decimal.Layout.json.double f))
  | string s => .string s
  | list _ => .sequence
  | object _ => .map

/-! ## Scalars -/

abbrev Decoder (α : Type) := Json → Except DecodeError α

namespace Decoder

def string : Decoder String
  | .string s => .ok s
  | other => .error (.type other.found .string)

def boolean : Decoder Bool
  | .bool b => .ok b
  | other => .error (.type other.found .boolean)

/-- A word of 32 bits. A double is none, whole or not. -/
def word : Decoder UInt32
  | .number (.int n) =>
    if 0 ≤ n ∧ n < UInt32.size then .ok (UInt32.ofNat n.toNat) else .error (.value (.integer n) .word)
  | other => .error (.type other.found .word)

def timestamp : Decoder Timestamp
  | .string s => (Timestamp.parse s).mapError .timestamp
  | other => .error (.type other.found .timestamp)

/-- One of the given values, by its name; instead of the name, an object may map it to null. -/
def tag {α : Type} (all : List α) (name : α → String) : Decoder α :=
  let named (s : String) : Except DecodeError α :=
    match all.find? fun a => name a = s with
    | some a => .ok a
    | none => .error (.variant s (all.map name))
  fun
  | .string s => named s
  | .object [(s, value)] => do
    let a ← named s
    match value with
    | .null => return a
    | other => throw (.type other.found .unit)
  | .object _ => .error (.value .map .singleKey)
  | other => .error (.type other.found .tag)

/-! ## Collections -/

def optional {α : Type} (d : Decoder α) : Decoder (Option α)
  | .null => .ok none
  | value => (d value).map some

def sequence {α : Type} (d : Decoder α) : Decoder (List α)
  | .list items => items.mapM d
  | other => .error (.type other.found .sequence)

def dictionary {α : Type} (d : Decoder α) : Decoder (Dictionary α)
  | .object members => do
    let entries ← members.mapM fun m => (d m.2).map fun a => (m.1, a)
    return Dictionary.ofList entries
  | other => .error (.type other.found .map)

/-! ## Records -/

/-- A field of a record: its name, and the fault of a value given for it. -/
structure Field where
  name : String
  fault? : Json → Option DecodeError

def Field.of {α : Type} (name : String) (d : Decoder α) : Field where
  name := name
  fault? value :=
    match d value with
    | .ok _ => none
    | .error e => some e

/-- The first fault among members that belong to a field; other members do not count. -/
def firstFault (fields : List Field) (members : List (String × Json)) : Option DecodeError :=
  members.findSome? fun (key, value) =>
    (fields.find? fun f => f.name = key).bind (·.fault? value)

def required {α : Type} (name : String) (d : Decoder α) (members : List (String × Json)) :
    Except DecodeError α :=
  match Json.find? name members with
  | some value => d value
  | none => .error (.missing name)

def defaulted {α : Type} (name : String) (d : Decoder α) (default : α)
    (members : List (String × Json)) : Except DecodeError α :=
  match Json.find? name members with
  | some value => d value
  | none => .ok default

/-- A record of this name. `build` makes it of members in which the fields have no fault, so all
that it can find wrong is a missing field. -/
def record {α : Type} (name : String) (fields : List Field)
    (build : List (String × Json) → Except DecodeError α) : Decoder α
  | .object members =>
    match firstFault fields members with
    | some e => .error e
    | none => build members
  | .list items =>
    let members := (fields.map (·.name)).zip items
    match firstFault fields members, build members with
    | some e, _ => .error e
    | none, .error _ => .error (.length items.length (.fields name fields.length))
    | none, .ok a =>
      if fields.length < items.length then .error (.length items.length .fewer) else .ok a
  | other => .error (.type other.found (.record name))

end Decoder

end ResourceAudit
