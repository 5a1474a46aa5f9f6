import ResourceAudit.Files.Path
import ResourceAudit.Schema
import Mathlib.Data.List.Basic

/-!
# Conformance to schemas

What a schema document asks of a value (`Conforms`), keyword by keyword, as JSON Schema has it for
the keywords that published schemas use; a document with any other keyword asks too much. The
published form of each schema asks for the values that the schema stands for (`admits_record_iff`
and its kin).
-/

namespace ResourceAudit

/-! ## Numbers and types -/

namespace Number

def isWhole : Number → Bool
  | int _ => true
  | float value => value.isFinite && value.floor == value

def isAtLeast (bound : Int) : Number → Bool
  | int value => decide (bound ≤ value)
  | float value => decide (Float.ofInt bound ≤ value)

def isBelow (bound : Int) : Number → Bool
  | int value => decide (value < bound)
  | float value => decide (value < Float.ofInt bound)

/-- Whether a number is an integer of 32 bits without a sign. -/
def isWord (n : Number) : Bool := n.isWhole && n.isAtLeast 0 && n.isBelow UInt32.size

end Number

namespace Json

def isInteger : Json → Bool
  | number n => n.isWhole
  | _ => false

def hasType (j : Json) (name : String) : Bool :=
  j.kind.typeName = name || name = "integer" && j.isInteger

def text? : Json → Option String
  | string s => some s
  | _ => none

end Json

/-! ## Keywords -/

inductive Keyword where
  | type (names : List String)
  | enum (values : List Json)
  | minimum (bound : Int)
  | word
  | required (names : List String)
  | properties (schemas : List (String × Json))
  | additionalProperties (schema : Json)
  | items (schema : Json)
  | ref (text : String)

namespace Keyword

/-- The keywords that ask for nothing. -/
def annotations : List String := ["$schema", "$defs", "title", "description", "default"]

/-- The keyword of a member, or none for an annotation. -/
def ofMember : String × Json → Option (List Keyword)
  | ("type", .string name) => some [.type [name]]
  | ("type", .list names) => (names.mapM Json.text?).map fun names => [.type names]
  | ("enum", .list values) => some [.enum values]
  | ("minimum", .number (.int bound)) => some [.minimum bound]
  | ("format", .string "uint32") => some [.word]
  | ("required", .list names) => (names.mapM Json.text?).map fun names => [.required names]
  | ("properties", .object schemas) => some [.properties schemas]
  | ("additionalProperties", schema) => some [.additionalProperties schema]
  | ("items", schema) => some [.items schema]
  | ("$ref", .string text) => some [.ref text]
  | (key, _) => if key ∈ annotations then some [] else none

/-- The keywords of a schema document, unless one is not known. -/
def read : List (String × Json) → Option (List Keyword)
  | [] => some []
  | m :: rest => do return (← ofMember m) ++ (← read rest)

/-- The names of the properties that keywords have schemas for. -/
def declared (ks : List Keyword) : List String :=
  ks.flatMap fun
    | properties schemas => schemas.map (·.1)
    | _ => []

theorem read_annotation {m : String × Json} (h : ofMember m = some [])
    (members : List (String × Json)) : read (m :: members) = read members := by
  rw [read, h]
  cases read members <;> rfl

theorem read_append_annotation {m : String × Json} (h : ofMember m = some [])
    (members : List (String × Json)) : read (members ++ [m]) = read members := by
  induction members with
  | nil => exact read_annotation h []
  | cons first rest ih => rw [List.cons_append, read, ih, read]

end Keyword

/-! ## References -/

/-- The names along a pointer into a document; a pointer with escapes is not followed. -/
def pointer? (text : String) : Option (List String) :=
  match Path.segments text.toList with
  | ['#'] :: names =>
    if names.any fun name => name.contains '~' || name.contains '%' then none
    else some (names.map String.ofList)
  | _ => none

/-- What a reference leads to in a document. -/
def resolve (root : Json) (text : String) : Option Json :=
  (pointer? text).bind fun names => names.foldlM (fun j name => j.field? name) root

/-! ## Conformance -/

mutual
/-- A value conforms to a schema, whose references lead into a document. -/
inductive Conforms (root : Json) : Json → Json → Prop
  | anything (j : Json) : Conforms root (.bool true) j
  | keywords {members : List (String × Json)} {ks : List Keyword} {j : Json} :
      Keyword.read members = some ks → (∀ k ∈ ks, Meets root (Keyword.declared ks) k j) →
      Conforms root (.object members) j
/-- A value meets a keyword, next to which schemas for some properties are declared. -/
inductive Meets (root : Json) : List String → Keyword → Json → Prop
  | type {declared names : List String} {j : Json} : (∃ name ∈ names, j.hasType name = true) →
      Meets root declared (.type names) j
  | enum {declared : List String} {values : List Json} {j : Json} : j ∈ values →
      Meets root declared (.enum values) j
  | minimum {declared : List String} {bound : Int} {j : Json} :
      (∀ n, j = .number n → n.isAtLeast bound = true) → Meets root declared (.minimum bound) j
  | word {declared : List String} {j : Json} : (∀ n, j = .number n → n.isWord = true) →
      Meets root declared .word j
  | required {declared names : List String} {j : Json} :
      (∀ members, j = .object members → ∀ name ∈ names, ∃ v, (name, v) ∈ members) →
      Meets root declared (.required names) j
  | properties {declared : List String} {schemas : List (String × Json)} {j : Json} :
      (∀ members, j = .object members → ∀ s ∈ schemas, ∀ v, (s.1, v) ∈ members →
        Conforms root s.2 v) →
      Meets root declared (.properties schemas) j
  | additionalProperties {declared : List String} {schema j : Json} :
      (∀ members, j = .object members → ∀ m ∈ members, m.1 ∉ declared → Conforms root schema m.2) →
      Meets root declared (.additionalProperties schema) j
  | items {declared : List String} {schema j : Json} :
      (∀ values, j = .list values → ∀ v ∈ values, Conforms root schema v) →
      Meets root declared (.items schema) j
  | ref {declared : List String} {text : String} {schema j : Json} :
      resolve root text = some schema → Conforms root schema j → Meets root declared (.ref text) j
end

variable {root j : Json} {members : List (String × Json)} {ks : List Keyword}

theorem conforms_iff (h : Keyword.read members = some ks) :
    Conforms root (.object members) j ↔ ∀ k ∈ ks, Meets root (Keyword.declared ks) k j := by
  constructor
  · intro hj
    cases hj with
    | keywords hread hmeets =>
        obtain rfl := Option.some.inj (h.symm.trans hread)
        exact hmeets
  · exact .keywords h

theorem Conforms.of_read_eq {members' : List (String × Json)}
    (h : Keyword.read members = Keyword.read members') (hj : Conforms root (.object members) j) :
    Conforms root (.object members') j := by
  cases hj with
  | keywords hread hmeets => exact .keywords (h ▸ hread) hmeets

theorem conforms_iff_of_read_eq {members' : List (String × Json)}
    (h : Keyword.read members = Keyword.read members') :
    Conforms root (.object members) j ↔ Conforms root (.object members') j :=
  ⟨.of_read_eq h, .of_read_eq h.symm⟩

/-! ## Meeting keywords -/

namespace Meets

variable {declared names : List String} {schema : Json}

theorem type_iff : Meets root declared (.type names) j ↔ ∃ name ∈ names, j.hasType name = true :=
  ⟨fun | .type h => h, .type⟩

theorem type_singleton_iff {name : String} :
    Meets root declared (.type [name]) j ↔ j.hasType name = true := by
  simp [type_iff]

theorem enum_iff {values : List Json} : Meets root declared (.enum values) j ↔ j ∈ values :=
  ⟨fun | .enum h => h, .enum⟩

theorem minimum_iff {bound : Int} : Meets root declared (.minimum bound) j ↔
    ∀ n, j = .number n → n.isAtLeast bound = true :=
  ⟨fun | .minimum h => h, .minimum⟩

theorem word_iff : Meets root declared .word j ↔ ∀ n, j = .number n → n.isWord = true :=
  ⟨fun | .word h => h, .word⟩

theorem required_iff : Meets root declared (.required names) j ↔
    ∀ members, j = .object members → ∀ name ∈ names, ∃ v, (name, v) ∈ members :=
  ⟨fun | .required h => h, .required⟩

theorem properties_iff {schemas : List (String × Json)} :
    Meets root declared (.properties schemas) j ↔
      ∀ members, j = .object members → ∀ s ∈ schemas, ∀ v, (s.1, v) ∈ members →
        Conforms root s.2 v :=
  ⟨fun | .properties h => h, .properties⟩

theorem additionalProperties_iff : Meets root declared (.additionalProperties schema) j ↔
    ∀ members, j = .object members → ∀ m ∈ members, m.1 ∉ declared → Conforms root schema m.2 :=
  ⟨fun | .additionalProperties h => h, .additionalProperties⟩

theorem items_iff : Meets root declared (.items schema) j ↔
    ∀ values, j = .list values → ∀ v ∈ values, Conforms root schema v :=
  ⟨fun | .items h => h, .items⟩

theorem ref_iff {text : String} (h : resolve root text = some schema) :
    Meets root declared (.ref text) j ↔ Conforms root schema j := by
  constructor
  · intro hj
    cases hj with
    | ref hresolve hschema => exact Option.some.inj (hresolve.symm.trans h) ▸ hschema
  · exact .ref h

end Meets

/-! ## Types -/

namespace Json

theorem hasType_typeName_iff {kind : Kind} : j.hasType kind.typeName = true ↔ j.kind = kind := by
  cases kind <;> cases j <;> simp [hasType, Json.kind, Kind.typeName, isInteger]

theorem hasType_integer_iff :
    j.hasType "integer" = true ↔ ∃ n, j = .number n ∧ n.isWhole = true := by
  cases j <;> simp [hasType, Json.kind, Kind.typeName, isInteger]

theorem hasType_string_iff : j.hasType "string" = true ↔ ∃ text, j = .string text := by
  cases j <;> simp [hasType, Json.kind, Kind.typeName, isInteger]

theorem hasType_array_iff : j.hasType "array" = true ↔ ∃ values, j = .list values := by
  cases j <;> simp [hasType, Json.kind, Kind.typeName, isInteger]

theorem hasType_object_iff : j.hasType "object" = true ↔ ∃ members, j = .object members := by
  cases j <;> simp [hasType, Json.kind, Kind.typeName, isInteger]

theorem mapM_text?_eq_some (names : List String) :
    (names.map Json.string).mapM text? = some names := by
  induction names with
  | nil => rfl
  | cons name rest ih => simp [text?, ih]

end Json

/-! ## Forms of schemas -/

namespace Schema

/-- A value is one that a schema admits, by its published form in a document. -/
def Admits (root : Json) (s : Schema) (j : Json) : Prop := Conforms root (.object s.members) j

variable {s : Schema}

theorem admits_iff (h : Keyword.read s.members = some ks) :
    s.Admits root j ↔ ∀ k ∈ ks, Meets root (Keyword.declared ks) k j :=
  conforms_iff h

theorem ofMember_typeMember (kinds : List Json.Kind) :
    Keyword.ofMember (typeMember kinds) = some [.type (kinds.map (·.typeName))] := by
  have hnames := Json.mapM_text?_eq_some (kinds.map (·.typeName))
  rw [List.map_map] at hnames
  unfold typeMember
  split
  · rfl
  · exact congrArg (Option.map fun names => [Keyword.type names]) hnames

theorem ofMember_required (names : List String) :
    Keyword.ofMember ("required", .list (names.map .string)) = some [.required names] :=
  congrArg (Option.map fun names => [Keyword.required names]) (Json.mapM_text?_eq_some names)

theorem admits_kinds_iff {kinds : List Json.Kind} :
    (Schema.kinds kinds).Admits root j ↔ j.kind ∈ kinds := by
  have hread : Keyword.read (Schema.kinds kinds).members =
      some [.type (kinds.map (·.typeName))] := by
    rw [members, Keyword.read, ofMember_typeMember]
    rfl
  rw [admits_iff hread, List.forall_mem_singleton, Meets.type_iff]
  simp [Json.hasType_typeName_iff]

theorem admits_word_iff : word.Admits root j ↔ ∃ n, j = .number n ∧ n.isWord = true := by
  have hread : Keyword.read word.members = some [.type ["integer"], .word, .minimum 0] := rfl
  rw [admits_iff hread, List.forall_mem_cons, List.forall_mem_cons, List.forall_mem_singleton,
    Meets.type_singleton_iff, Meets.word_iff, Meets.minimum_iff]
  constructor
  · rintro ⟨hinteger, hword, -⟩
    obtain ⟨n, rfl, -⟩ := Json.hasType_integer_iff.1 hinteger
    exact ⟨n, rfl, hword n rfl⟩
  · rintro ⟨n, rfl, hn⟩
    have hparts := hn
    simp only [Number.isWord, Bool.and_eq_true] at hparts
    refine ⟨Json.hasType_integer_iff.2 ⟨n, rfl, hparts.1.1⟩, ?_, ?_⟩
    · rintro _ ⟨⟩
      exact hn
    · rintro _ ⟨⟩
      exact hparts.1.2

theorem admits_tags_iff {names : List String} :
    (tags names).Admits root j ↔ ∃ name ∈ names, j = .string name := by
  have hread : Keyword.read (tags names).members =
    some [.type ["string"], .enum (names.map .string)] := rfl
  rw [admits_iff hread, List.forall_mem_cons, List.forall_mem_singleton,
    Meets.type_singleton_iff, Meets.enum_iff, List.mem_map]
  constructor
  · rintro ⟨-, name, hname, rfl⟩
    exact ⟨name, hname, rfl⟩
  · rintro ⟨name, hname, rfl⟩
    exact ⟨Json.hasType_string_iff.2 ⟨name, rfl⟩, name, hname, rfl⟩

theorem admits_list_iff {items : Schema} :
    (list items).Admits root j ↔ ∃ vs, j = .list vs ∧ ∀ v ∈ vs, items.Admits root v := by
  have hread : Keyword.read (list items).members =
    some [.type ["array"], .items (.object items.members)] := rfl
  rw [admits_iff hread, List.forall_mem_cons, List.forall_mem_singleton,
    Meets.type_singleton_iff, Meets.items_iff]
  constructor
  · rintro ⟨harray, hitems⟩
    obtain ⟨vs, rfl⟩ := Json.hasType_array_iff.1 harray
    exact ⟨vs, rfl, hitems vs rfl⟩
  · rintro ⟨vs, rfl, hitems⟩
    refine ⟨Json.hasType_array_iff.2 ⟨vs, rfl⟩, ?_⟩
    rintro _ ⟨⟩
    exact hitems

theorem admits_dictionary_iff {values : Schema} :
    (dictionary values).Admits root j ↔
      ∃ ms, j = .object ms ∧ ∀ m ∈ ms, values.Admits root m.2 := by
  have hread : Keyword.read (dictionary values).members =
    some [.type ["object"], .additionalProperties (.object values.members)] := rfl
  rw [admits_iff hread, List.forall_mem_cons, List.forall_mem_singleton,
    Meets.type_singleton_iff, Meets.additionalProperties_iff]
  constructor
  · rintro ⟨hobject, hvalues⟩
    obtain ⟨ms, rfl⟩ := Json.hasType_object_iff.1 hobject
    -- No property is declared next to the schema of the values, so it is for all of them.
    exact ⟨ms, rfl, fun m hm => hvalues ms rfl m hm List.not_mem_nil⟩
  · rintro ⟨ms, rfl, hvalues⟩
    refine ⟨Json.hasType_object_iff.2 ⟨ms, rfl⟩, ?_⟩
    rintro _ ⟨⟩ m hm -
    exact hvalues m hm

theorem properties_eq_map (fields : List (String × Presence × Schema)) :
    properties fields = fields.map fun f => (f.1, .object f.2.2.members) := by
  induction fields with
  | nil => rfl
  | cons f rest ih => rw [properties, ih, List.map_cons]

theorem read_requiredMember (fields : List (String × Presence × Schema)) :
    ∃ ks, Keyword.read (requiredMember fields) = some ks ∧
      ∀ {root declared j}, (∀ k ∈ ks, Meets root declared k j) ↔
        ∀ ms, j = .object ms → ∀ name ∈ requiredNames fields, ∃ v, (name, v) ∈ ms := by
  unfold requiredMember
  split
  · rename_i hnone
    exact ⟨[], rfl, by simp [hnone]⟩
  · refine ⟨[.required (requiredNames fields)], ?_, ?_⟩
    · rw [Keyword.read, ofMember_required]
      rfl
    · intro root declared j
      rw [List.forall_mem_singleton, Meets.required_iff]

theorem mem_requiredNames {fields : List (String × Presence × Schema)} {name : String} :
    name ∈ requiredNames fields ↔ ∃ f ∈ fields, f.2.1 = .required ∧ f.1 = name := by
  simp only [requiredNames, List.mem_map, List.mem_filter, decide_eq_true_eq, and_assoc]

theorem admits_record_iff {fields : List (String × Presence × Schema)} :
    (record fields).Admits root j ↔ ∃ ms, j = .object ms ∧
      ∀ f ∈ fields, (f.2.1 = .required → ∃ v, (f.1, v) ∈ ms) ∧
        ∀ v, (f.1, v) ∈ ms → f.2.2.Admits root v := by
  obtain ⟨ks, hks, hrequired⟩ := read_requiredMember fields
  have hread : Keyword.read (record fields).members =
      some (.type ["object"] :: .properties (properties fields) :: ks) := by
    have hmembers : (record fields).members = typeMember [.object] ::
        ("properties", .object (properties fields)) :: requiredMember fields := rfl
    rw [hmembers, Keyword.read, Keyword.read, hks]
    rfl
  rw [admits_iff hread, List.forall_mem_cons, List.forall_mem_cons, Meets.type_singleton_iff,
    Meets.properties_iff, hrequired, properties_eq_map]
  constructor
  · rintro ⟨hobject, hproperties, hnames⟩
    obtain ⟨ms, rfl⟩ := Json.hasType_object_iff.1 hobject
    refine ⟨ms, rfl, fun f hf => ⟨fun hmust => ?_, fun v hv => ?_⟩⟩
    · exact hnames ms rfl f.1 (mem_requiredNames.2 ⟨f, hf, hmust, rfl⟩)
    · exact hproperties ms rfl _ (List.mem_map_of_mem hf) v hv
  · rintro ⟨ms, rfl, hfields⟩
    refine ⟨Json.hasType_object_iff.2 ⟨ms, rfl⟩, ?_, ?_⟩
    · rintro _ ⟨⟩ _ hs v hv
      obtain ⟨f, hf, rfl⟩ := List.mem_map.1 hs
      exact (hfields f hf).2 v hv
    · rintro _ ⟨⟩ name hname
      obtain ⟨f, hf, hmust, rfl⟩ := mem_requiredNames.1 hname
      exact (hfields f hf).1 hmust

theorem admits_named_iff {name : String} {body : Schema}
    (h : resolve root (reference name) = some (.object body.members)) :
    (named name body).Admits root j ↔ body.Admits root j := by
  have hread : Keyword.read (named name body).members = some [.ref (reference name)] := rfl
  rw [admits_iff hread, List.forall_mem_singleton]
  exact Meets.ref_iff h

theorem admits_described_iff {text : String} {body : Schema} :
    (described text body).Admits root j ↔ body.Admits root j := by
  refine conforms_iff_of_read_eq ?_
  rw [members, Keyword.read_annotation rfl]

theorem admits_defaulting_iff {default : Json} {body : Schema} :
    (defaulting body default).Admits root j ↔ body.Admits root j := by
  refine conforms_iff_of_read_eq ?_
  rw [members, Keyword.read_append_annotation rfl]

/-- A value conforms to a published schema if it is one that the schema admits. -/
theorem conforms_document_iff {title : String} {s : Schema} :
    Conforms root (s.document title) j ↔ s.Admits root j := by
  refine conforms_iff_of_read_eq ?_
  rw [List.append_assoc, List.cons_append, Keyword.read_annotation rfl, List.cons_append,
    Keyword.read_annotation rfl, List.nil_append]
  split
  · rw [List.append_nil]
  · rw [Keyword.read_append_annotation rfl]

/-! ## Named parts -/

/-- A document defines the named parts of a schema. -/
def DefinedIn (s : Schema) (root : Json) : Prop :=
  ∀ p ∈ s.parts, resolve root (reference p.1) = some (.object p.2.members)

namespace DefinedIn

theorem named {name : String} {body : Schema} (h : (Schema.named name body).DefinedIn root) :
    resolve root (reference name) = some (.object body.members) ∧ body.DefinedIn root :=
  List.forall_mem_cons.1 h

theorem described {text : String} {body : Schema}
    (h : (Schema.described text body).DefinedIn root) : body.DefinedIn root :=
  h

theorem record {fields : List (String × Presence × Schema)}
    (h : (Schema.record fields).DefinedIn root) : ∀ f ∈ fields, f.2.2.DefinedIn root := by
  induction fields with
  | nil => exact List.forall_mem_nil _
  | cons f rest ih =>
      obtain ⟨hfirst, hrest⟩ := List.forall_mem_append.1 h
      exact List.forall_mem_cons.2 ⟨hfirst, ih hrest⟩

end DefinedIn

end Schema

end ResourceAudit
