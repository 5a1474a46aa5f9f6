import ResourceAudit.Json.Writer

/-!
# Schemas

A schema describes the JSON values of a format. It is published as a JSON document in which a
named part is defined once and referred to elsewhere; the definitions stand in the order in which
the parts are first met.
-/

namespace ResourceAudit

def Json.Kind.typeName : Json.Kind → String
  | .null => "null"
  | .boolean => "boolean"
  | .number => "number"
  | .string => "string"
  | .list => "array"
  | .object => "object"

/-- Whether a field of a record has to be there. -/
inductive Presence where
  | required
  | optional
deriving DecidableEq, Repr

/-- What values a place may hold. -/
inductive Schema where
  /-- A value of one of these kinds. -/
  | kinds (kinds : List Json.Kind)
  /-- An integer of 32 bits without a sign. -/
  | word
  /-- One of these names. -/
  | tags (names : List String)
  /-- A list of such items. -/
  | list (items : Schema)
  /-- An object whose keys are free. -/
  | dictionary (values : Schema)
  /-- An object with these fields, and maybe others. -/
  | record (fields : List (String × Presence × Schema))
  /-- A part with a name of its own. -/
  | named (name : String) (body : Schema)
  /-- With a sentence that says what the value is. -/
  | described (text : String) (body : Schema)
  /-- With the value that stands for a missing one. -/
  | defaulting (body : Schema) (default : Json)

namespace Schema

def string : Schema := kinds [.string]

def boolean : Schema := kinds [.boolean]

/-- The same values of a kind, or null. -/
def orNull (kind : Json.Kind) : Schema := kinds [kind, .null]

/-! ## Publishing -/

def typeMember : List Json.Kind → String × Json
  | [kind] => ("type", .string kind.typeName)
  | several => ("type", .list (several.map fun k => .string k.typeName))

def requiredNames (fields : List (String × Presence × Schema)) : List String :=
  (fields.filter fun f => f.2.1 = .required).map (·.1)

/-- The member that lists the required fields; it is left out where there are none. -/
def requiredMember (fields : List (String × Presence × Schema)) : List (String × Json) :=
  match requiredNames fields with
  | [] => []
  | names => [("required", .list (names.map .string))]

def reference (name : String) : String := "#/$defs/" ++ name

mutual
def members : Schema → List (String × Json)
  | kinds ks => [typeMember ks]
  | word =>
    [("type", .string "integer"), ("format", .string "uint32"), ("minimum", .number (.int 0))]
  | tags names => [typeMember [.string], ("enum", .list (names.map .string))]
  | list items => [typeMember [.list], ("items", .object items.members)]
  | dictionary values => [typeMember [.object], ("additionalProperties", .object values.members)]
  | record fields =>
    [typeMember [.object], ("properties", .object (properties fields))] ++ requiredMember fields
  | named name _ => [("$ref", .string (reference name))]
  | described text body => ("description", .string text) :: body.members
  | defaulting body default => body.members ++ [("default", default)]
def properties : List (String × Presence × Schema) → List (String × Json)
  | [] => []
  | (name, _, body) :: rest => (name, .object body.members) :: properties rest
end

mutual
/-- The named parts of a schema, each in front of those inside it. -/
def parts : Schema → List (String × Schema)
  | kinds _ => []
  | word => []
  | tags _ => []
  | list items => items.parts
  | dictionary values => values.parts
  | record fields => fieldParts fields
  | named name body => (name, body) :: body.parts
  | described _ body => body.parts
  | defaulting body _ => body.parts
def fieldParts : List (String × Presence × Schema) → List (String × Schema)
  | [] => []
  | (_, _, body) :: rest => body.parts ++ fieldParts rest
end

/-- The definitions of the named parts, each once. -/
def definitions (s : Schema) : List (String × Json) :=
  Json.putAll (s.parts.map fun (name, body) => (name, .object body.members))

def dialect : String := "https://json-schema.org/draft/2020-12/schema"

/-- The document that publishes a schema under a title. -/
def document (title : String) (s : Schema) : Json :=
  .object <|
    [("$schema", .string dialect), ("title", .string title)] ++ s.members ++
    match s.definitions with
    | [] => []
    | parts => [("$defs", .object parts)]

end Schema

end ResourceAudit
