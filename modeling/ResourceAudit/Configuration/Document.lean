import ResourceAudit.Configuration
import ResourceAudit.Json.Reader

/-!
# Configurations from JSON documents

A document maps types to names to attributes. Two wrappers are looked through: a sole `resource`
key around the whole, and a list around a block or, with one item, around a body. A resource
declared twice and a body with an attribute given twice are malformed; only a document or a block
of the wrong kind is refused.
-/

namespace ResourceAudit

/-! ## Refusals -/

/-- Why a document gives no configuration. -/
inductive DocumentError where
  | unreadable (refusal : Json.Refusal)
  | rootKind
  | blockKind (block : String) (found : Json.Kind)
  | itemKind (block : String) (found : Json.Kind)
deriving DecidableEq, Repr

/-- The chain of causes, the outermost first. -/
def DocumentError.chain : DocumentError → List String
  | unreadable refusal => ["parse configuration json", refusal.message]
  | rootKind => ["configuration must be a JSON object keyed by resource type"]
  | blockKind block found =>
    [s!"resource type `{block}` must map names to resources, found {found.phrase}"]
  | itemKind block found =>
    [s!"resource type `{block}` must map names to resources, found a list of {found.phrase}"]

/-! ## Blocks -/

/-- The entries of the maps in a list, in turn. -/
def mergedEntries (block : String) : List Json → Except DocumentError (List (String × Json))
  | [] => .ok []
  | .object entries :: rest => (mergedEntries block rest).map (entries ++ ·)
  | other :: _ => .error (.itemKind block other.kind)

/-- The entries of a block: of a map, or of the maps in a list. -/
def blockEntries (block : String) : Json → Except DocumentError (List (String × Json))
  | .object entries => .ok entries
  | .list items => mergedEntries block items
  | other => .error (.blockKind block other.kind)

def wrapperKey : String := "resource"

/-- The blocks of a document by type, out of a sole wrapper. -/
def documentBlocks : Json → Except DocumentError (List (String × Json))
  | .object [(key, inner)] =>
    if key = wrapperKey then blockEntries wrapperKey inner else .ok [(key, inner)]
  | .object blocks => .ok blocks
  | _ => .error .rootKind

/-! ## Declarations -/

/-- A body declared for a type and a name. -/
structure Declaration where
  type : String
  name : String
  body : Json
deriving Repr, BEq

def Declaration.key (d : Declaration) : String × String := (d.type, d.name)

/-- The declarations of a document, in order. -/
def declarationsIn : List (String × Json) → Except DocumentError (List Declaration)
  | [] => .ok []
  | (type, block) :: rest => do
    let entries ← blockEntries type block
    let others ← declarationsIn rest
    return entries.map (fun (name, body) => ⟨type, name, body⟩) ++ others

def declarations (document : Json) : Except DocumentError (List Declaration) :=
  documentBlocks document >>= declarationsIn

/-! ## Bodies -/

def unwrapped : Json → Json
  | .list [body] => body
  | body => body

/-- Attributes of a body, added one by one: the first key that comes again is a defect. -/
def collectAttributes (known : Attributes) : List (String × Json) → Body
  | [] => .attributes known
  | (key, value) :: rest =>
    if (known.get? key).isSome then .malformed s!"duplicate attribute `{key}`"
    else collectAttributes (known.insert key value.plain) rest

def Body.ofJson (body : Json) : Body :=
  match unwrapped body with
  | .object members => collectAttributes .empty members
  | other => .malformed s!"attributes must be an object, found {other.kind.phrase}"

def Body.duplicate : Body := .malformed "duplicate resource name"

/-! ## Ledgers -/

/-- A resource as declared so far. Its body is given up once it is declared again. -/
structure Row where
  type : String
  name : String
  body : Option Json
deriving Repr, BEq

namespace Row

def key (row : Row) : String × String := (row.type, row.name)

def first (d : Declaration) : Row := ⟨d.type, d.name, some d.body⟩

/-- The row of a resource that is declared once more. -/
def spoiled (row : Row) : Row := { row with body := none }

def resource (row : Row) : Resource :=
  ⟨row.type, row.name, (row.body.map Body.ofJson).getD .duplicate⟩

end Row

/-- Rows in the order of the first declarations, and the place of each pair among them. -/
structure Ledger where
  rows : List Row
  places : List ((String × String) × Nat)
  agree : ∀ key place, places.lookup key = some place ↔ (rows.map Row.key)[place]? = some key

namespace Ledger

def empty : Ledger := ⟨[], [], by simp⟩

theorem map_key_modify_spoiled (rows : List Row) (place : Nat) :
    (rows.modify place Row.spoiled).map Row.key = rows.map Row.key := by
  induction rows generalizing place with
  | nil => simp
  | cons row rest ih => cases place <;> simp [Row.spoiled, Row.key, ih]

theorem agree_snoc (l : Ledger) {d : Declaration} (h : l.places.lookup d.key = none)
    (key : String × String) (place : Nat) :
    ((d.key, l.rows.length) :: l.places).lookup key = some place ↔
      ((l.rows ++ [Row.first d]).map Row.key)[place]? = some key := by
  have hkeys : (l.rows ++ [Row.first d]).map Row.key = l.rows.map Row.key ++ [d.key] := by
    simp [Row.first, Row.key, Declaration.key]
  rw [hkeys, List.lookup_cons]
  by_cases hkey : key = d.key
  · subst hkey
    have habsent : (l.rows.map Row.key)[place]? ≠ some d.key := fun hplace => by
      have hfound := (l.agree d.key place).2 hplace
      rw [h] at hfound
      exact absurd hfound (by simp)
    rw [beq_self_eq_true]
    dsimp only
    constructor
    · intro hplace
      cases hplace
      simp
    · intro hplace
      rcases Nat.lt_trichotomy place l.rows.length with hlt | rfl | hgt
      · rw [List.getElem?_append_left (by simpa using hlt)] at hplace
        exact absurd hplace habsent
      · rfl
      · have hlen : (l.rows.map Row.key ++ [d.key]).length ≤ place := by
          simp only [List.length_append, List.length_map, List.length_singleton]
          omega
        rw [List.getElem?_eq_none hlen] at hplace
        exact absurd hplace (by simp)
  · rw [beq_false_of_ne hkey]
    dsimp only
    rw [l.agree key place, List.getElem?_append]
    split
    · exact Iff.rfl
    · rename_i hge
      have hnone : (l.rows.map Row.key)[place]? = none :=
        List.getElem?_eq_none (Nat.le_of_not_lt hge)
      have hother : [d.key][place - (l.rows.map Row.key).length]? ≠ some key := fun hplace =>
        hkey (List.mem_singleton.1 (List.mem_of_getElem? hplace))
      exact iff_of_false (by simp [hnone]) hother

/-- Enters a declaration: behind the other rows, or as one more of a resource that has a row. -/
def enter (l : Ledger) (d : Declaration) : Ledger :=
  match h : l.places.lookup d.key with
  | some place =>
    { l with
      rows := l.rows.modify place Row.spoiled
      agree := by simpa only [map_key_modify_spoiled] using l.agree }
  | none => ⟨l.rows ++ [.first d], (d.key, l.rows.length) :: l.places, l.agree_snoc h⟩

def ofDeclarations (ds : List Declaration) : Ledger := ds.foldl enter empty

end Ledger

/-! ## Configurations -/

/-- The configuration that declarations make, resource by resource. -/
def Configuration.ofDeclarations (ds : List Declaration) : Configuration :=
  .ofList ((Ledger.ofDeclarations ds).rows.map Row.resource)

def Configuration.ofJson (document : Json) : Except DocumentError Configuration :=
  (declarations document).map .ofDeclarations

def Configuration.parse (text : String) : Except DocumentError Configuration :=
  match Json.readTree text with
  | .error refusal => .error (.unreadable refusal)
  | .ok document => Configuration.ofJson document

end ResourceAudit
