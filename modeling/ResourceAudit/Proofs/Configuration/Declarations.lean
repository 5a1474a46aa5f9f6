import ResourceAudit.Proofs.Accepted
import ResourceAudit.Proofs.Configuration.Body
import ResourceAudit.Proofs.Configuration.Grouping
import ResourceAudit.Proofs.Configuration.Ledger

/-!
# What a document declares

`occurrences` reads the declarations off a document without looking for errors. An accepted
document makes a configuration that keeps account of them (`Records`): one resource for each pair,
types and resources in the order in which they first occur, a resource declared twice as a
duplicate, and every other body as it reads.
-/

namespace ResourceAudit

/-! ## Occurrences -/

/-- The entries of a map, or of the maps in a list. -/
def entriesOf : Json → List (String × Json)
  | .object entries => entries
  | .list items => items.flatMap fun
    | .object entries => entries
    | _ => []
  | _ => []

/-- The blocks of a document by type. A sole `resource` holds the blocks of the document. -/
def blocksOf : Json → List (String × Json)
  | .object [("resource", inner)] => entriesOf inner
  | .object blocks => blocks
  | _ => []

/-- The declarations of a document, in document order. -/
def occurrences (document : Json) : List Declaration :=
  (blocksOf document).flatMap fun block =>
    (entriesOf block.2).map fun entry => ⟨block.1, entry.1, entry.2⟩

theorem mergedEntries_eq_ok {block : String} {items : List Json} {entries : List (String × Json)}
    (h : mergedEntries block items = .ok entries) : entries = entriesOf (.list items) := by
  induction items generalizing entries with
  | nil =>
      cases h
      rfl
  | cons item rest ih =>
      cases item with
      | object es =>
          obtain ⟨others, hrest, rfl⟩ := map_eq_ok.1 h
          rw [ih hrest]
          rfl
      | _ => simp [mergedEntries] at h

theorem blockEntries_eq_ok {block : String} {value : Json} {entries : List (String × Json)}
    (h : blockEntries block value = .ok entries) : entries = entriesOf value := by
  cases value with
  | object es =>
      cases h
      rfl
  | list items => exact mergedEntries_eq_ok h
  | _ => simp [blockEntries] at h

theorem documentBlocks_eq_ok {document : Json} {blocks : List (String × Json)}
    (h : documentBlocks document = .ok blocks) : blocks = blocksOf document := by
  unfold documentBlocks at h
  split at h
  · rename_i key inner
    split at h
    · rename_i hkey
      subst hkey
      exact blockEntries_eq_ok h
    · rename_i hkey
      cases h
      unfold blocksOf
      split
      · rename_i heq
        simp only [Json.object.injEq, List.cons.injEq, Prod.mk.injEq] at heq
        exact absurd heq.1.1 hkey
      · rename_i heq
        cases heq
        rfl
      · rename_i hobject
        exact absurd rfl (hobject _)
  · rename_i hsole
    cases h
    unfold blocksOf
    split
    · rename_i heq
      cases heq
      exact absurd rfl (hsole _ _)
    · rename_i heq
      cases heq
      rfl
    · rename_i hobject
      exact absurd rfl (hobject _)
  · cases h

theorem declarationsIn_eq_ok {blocks : List (String × Json)} {ds : List Declaration}
    (h : declarationsIn blocks = .ok ds) :
    ds = blocks.flatMap fun block =>
      (entriesOf block.2).map fun entry => ⟨block.1, entry.1, entry.2⟩ := by
  induction blocks generalizing ds with
  | nil =>
      cases h
      rfl
  | cons block rest ih =>
      obtain ⟨type, value⟩ := block
      simp only [declarationsIn, bind_eq_ok, pure_eq_ok] at h
      obtain ⟨entries, hentries, others, hrest, rfl⟩ := h
      rw [ih hrest, blockEntries_eq_ok hentries]
      rfl

/-- An accepted document declares what it shows. -/
theorem declarations_eq_ok {document : Json} {ds : List Declaration}
    (h : declarations document = .ok ds) : ds = occurrences document := by
  obtain ⟨blocks, hblocks, hdeclared⟩ := bind_eq_ok.1 h
  rw [declarationsIn_eq_ok hdeclared, documentBlocks_eq_ok hblocks]
  rfl

theorem Configuration.ofJson_eq_ok {document : Json} {c : Configuration}
    (h : Configuration.ofJson document = .ok c) : c = .ofDeclarations (occurrences document) := by
  obtain ⟨ds, hds, rfl⟩ := map_eq_ok.1 h
  rw [declarations_eq_ok hds]

theorem Configuration.parse_eq_ok {text : String} {c : Configuration}
    (h : Configuration.parse text = .ok c) :
    ∃ document, Json.readTree text = .ok document ∧ Configuration.ofJson document = .ok c := by
  unfold Configuration.parse at h
  split at h
  · cases h
  · rename_i document hdocument
    exact ⟨document, hdocument, h⟩

/-! ## Keeping account of declarations -/

/-- The pair that identifies a resource. -/
def Resource.key (r : Resource) : String × String := (r.type, r.name)

/-- What a configuration holds for declarations: each pair once, in the order of first
declaration, with the body that its declarations give it. -/
structure Records (ds : List Declaration) (c : Configuration) : Prop where
  once : (c.resources.map Resource.key).Nodup
  pairs : ∀ key, key ∈ c.resources.map Resource.key ↔ key ∈ ds.map Declaration.key
  types : c.types = (ds.map (·.type)).eraseDups
  ofType : ∀ type, (c.ofType type).map Resource.key =
    ((ds.filter (·.type = type)).map Declaration.key).eraseDups
  duplicate : ∀ r ∈ c.resources, r.body = .malformed "duplicate resource name" ↔
    1 < (ds.map Declaration.key).count r.key
  body : ∀ r ∈ c.resources, ∀ d ∈ ds, d.key = r.key → (ds.map Declaration.key).count r.key = 1 →
    ∀ b, r.body = b ↔ Body.Reads d.body b

namespace Ledger

/-- The resources of a ledger, by their pairs. -/
def resourceOf (ds : List Declaration) (key : String × String) : Resource :=
  (rowOf ds key).resource

theorem resources_ofDeclarations (ds : List Declaration) :
    (ofDeclarations ds).rows.map Row.resource =
      (ds.map Declaration.key).eraseDups.map (resourceOf ds) := by
  rw [rows_ofDeclarations, List.map_map]
  rfl

theorem map_key_resourceOf (ds : List Declaration) (keys : List (String × String)) :
    (keys.map (resourceOf ds)).map Resource.key = keys := by
  rw [List.map_map]
  exact List.map_id _

end Ledger

namespace Configuration

open Ledger

theorem mem_resources_ofDeclarations {ds : List Declaration} {r : Resource} :
    r ∈ (ofDeclarations ds).resources ↔
      ∃ key ∈ ds.map Declaration.key, resourceOf ds key = r := by
  rw [ofDeclarations, (resources_perm_ofList _).mem_iff, resources_ofDeclarations, List.mem_map]
  simp only [List.mem_eraseDups]

theorem nodup_key_ofDeclarations (ds : List Declaration) :
    ((ofDeclarations ds).resources.map Resource.key).Nodup := by
  have hperm := (resources_perm_ofList ((Ledger.ofDeclarations ds).rows.map Row.resource)).map
    Resource.key
  rw [ofDeclarations, hperm.nodup_iff, resources_ofDeclarations, map_key_resourceOf]
  exact nodup_eraseDups _

theorem types_ofDeclarations (ds : List Declaration) :
    (ofDeclarations ds).types = (ds.map (·.type)).eraseDups := by
  have htypes (keys : List (String × String)) :
      (keys.map (resourceOf ds)).map (·.type) = keys.map (·.1) := by
    rw [List.map_map]
    rfl
  rw [ofDeclarations, types_ofList, resources_ofDeclarations, htypes, eraseDups_map_eraseDups,
    List.map_map]
  rfl

theorem ofType_ofDeclarations (ds : List Declaration) (type : String) :
    ((ofDeclarations ds).ofType type).map Resource.key =
      ((ds.filter (·.type = type)).map Declaration.key).eraseDups := by
  have hfilter (keys : List (String × String)) :
      (keys.map (resourceOf ds)).filter (·.type = type) =
        (keys.filter (·.1 = type)).map (resourceOf ds) := by
    rw [List.filter_map]
    rfl
  rw [ofDeclarations, ofType_ofList, resources_ofDeclarations, hfilter, map_key_resourceOf,
    filter_eraseDups, List.filter_map]
  rfl

/-- A resource is a duplicate, or it has the body of its only declaration. -/
theorem body_resourceOf {ds : List Declaration} {d : Declaration} (hd : d ∈ ds) :
    (resourceOf ds d.key).body =
      if (ds.map Declaration.key).count d.key = 1 then .ofJson d.body else .duplicate := by
  split
  · rename_i hsole
    simp [resourceOf, rowOf, Row.resource, soleBody_of_count_eq_one hd hsole]
  · rename_i hcount
    have hpos : 0 < (ds.map Declaration.key).count d.key :=
      List.count_pos_iff.2 (List.mem_map_of_mem hd)
    have hrepeated : 1 < (ds.map Declaration.key).count d.key := by omega
    simp [resourceOf, rowOf, Row.resource, soleBody_of_one_lt_count hrepeated]

theorem records_ofDeclarations (ds : List Declaration) : Records ds (ofDeclarations ds) where
  once := nodup_key_ofDeclarations ds
  pairs := by
    intro key
    simp only [List.mem_map (f := Resource.key), mem_resources_ofDeclarations]
    constructor
    · rintro ⟨_, ⟨key', hkey', rfl⟩, rfl⟩
      exact hkey'
    · intro hkey
      exact ⟨_, ⟨key, hkey, rfl⟩, rfl⟩
  types := types_ofDeclarations ds
  ofType := ofType_ofDeclarations ds
  duplicate := by
    intro r hr
    obtain ⟨key, hkey, rfl⟩ := mem_resources_ofDeclarations.1 hr
    obtain ⟨d, hd, rfl⟩ := List.mem_map.1 hkey
    have hrkey : (resourceOf ds d.key).key = d.key := rfl
    have hpos : 0 < (ds.map Declaration.key).count d.key := List.count_pos_iff.2 hkey
    rw [hrkey, body_resourceOf hd]
    split
    · rename_i hsole
      constructor
      · exact fun h => absurd h (Body.ofJson_ne_duplicate d.body)
      · omega
    · exact ⟨fun _ => by omega, fun _ => rfl⟩
  body := by
    intro r hr d hd hkey hsole b
    obtain ⟨key, _, rfl⟩ := mem_resources_ofDeclarations.1 hr
    have hrkey : (resourceOf ds key).key = key := rfl
    rw [hrkey] at hkey hsole
    subst hkey
    rw [body_resourceOf hd, if_pos hsole, Body.reads_iff]

/-- An accepted document loses, invents and merges no declaration. -/
theorem records_of_ofJson_eq_ok {document : Json} {c : Configuration}
    (h : ofJson document = .ok c) : Records (occurrences document) c := by
  rw [ofJson_eq_ok h]
  exact records_ofDeclarations _

/-- A document that declares `web` twice, in two maps of a list around the whole. -/
def repeatedName : Json :=
  .object [("resource", .list [
    .object [("vm", .object [("web", .object [("ami", .string "x")]), ("db", .string "y")])],
    .object [("vm", .list [.object [("web", .null)]]),
      ("net", .object [("a", .list [.object [("cidr", .null), ("cidr", .bool true)]])])]])]

theorem records_repeatedName :
    ∃ c, ofJson repeatedName = .ok c ∧ Records (occurrences repeatedName) c ∧
      c = ⟨[⟨"vm", [⟨"vm", "web", .malformed "duplicate resource name"⟩,
          ⟨"vm", "db", .malformed "attributes must be an object, found a string"⟩]⟩,
        ⟨"net", [⟨"net", "a", .malformed "duplicate attribute `cidr`"⟩]⟩]⟩ :=
  ⟨_, rfl, records_of_ofJson_eq_ok rfl, rfl⟩

end Configuration

end ResourceAudit
