import ResourceAudit.Proofs.Configuration.Declarations
import ResourceAudit.Proofs.Json.Builders
import ResourceAudit.Proofs.Json.Plain
import ResourceAudit.Proofs.Json.Writer

/-!
# Values of attributes

A document is read as a tree that keeps repeated keys, and what checks see of it is plain. Reading
the same text plainly at once comes to the same (`Configuration.values_plain`).
-/

namespace ResourceAudit

namespace Json

variable {text : String} {j value : Json} {s rest : List Char}

theorem read_plain_iff {depth : Nat} (h : (Reader.value .tree depth).read s = .ok (j, rest)) :
    (Reader.value .plain depth).read s = .ok (value, rest) ↔ PlainOf j value := by
  rw [Reader.value_agree .plain depth s, h, plainOf_iff]
  simp only [Except.map, Builder.build_plain, Except.ok.injEq, Prod.mk.injEq, and_true, eq_comm]

theorem readPlain_of_readTree (h : readTree text = .ok j) : readPlain text = .ok j.plain := by
  rw [readPlain_eq_map_readTree, h]
  rfl

theorem readPlain_eq_ok_iff (h : readTree text = .ok j) :
    readPlain text = .ok value ↔ PlainOf j value := by
  rw [readPlain_of_readTree h, plainOf_iff, Except.ok.injEq, eq_comm]

theorem readPlain_eq_error_iff {refusal : Refusal} :
    readPlain text = .error refusal ↔ readTree text = .error refusal := by
  rw [readPlain_eq_map_readTree]
  cases readTree text <;> simp [Except.map]

end Json

/-- The attributes of a resource are these members made plain. -/
def Resource.HoldsPlain (r : Resource) (members : List (String × Json)) : Prop :=
  ∀ key value, r.attribute? key = some value ↔ ∃ raw, (key, raw) ∈ members ∧ Json.PlainOf raw value

/-- A well-formed resource is declared once, with keys that are all different, and its attributes
are the members of that declaration made plain. -/
def Resource.IsTakenFrom (ds : List Declaration) (r : Resource) : Prop :=
  ∀ attributes, r.body = .attributes attributes →
    ∃ d ∈ ds, d.key = r.key ∧ (ds.map Declaration.key).count r.key = 1 ∧
      ∃ members, Json.Unwraps d.body (.object members) ∧ (members.map (·.1)).Nodup ∧
        r.HoldsPlain members

/-- A declaration that is the only one of its pair, with keys that are all different, makes a
well-formed resource of its members made plain. -/
def Declaration.IsDelivered (ds : List Declaration) (c : Configuration) (d : Declaration) : Prop :=
  (ds.map Declaration.key).count d.key = 1 → ∀ members, Json.Unwraps d.body (.object members) →
    (members.map (·.1)).Nodup → ∃ r ∈ c.resources, r.key = d.key ∧
      (∃ attributes, r.body = .attributes attributes) ∧ r.HoldsPlain members

namespace Configuration

theorem isDelivered_ofDeclarations {ds : List Declaration} {d : Declaration} (hd : d ∈ ds) :
    d.IsDelivered ds (ofDeclarations ds) := by
  intro hsole members hunwraps hkeys
  obtain ⟨attributes, hcollected, hvalues⟩ :=
    collectAttributes_of_nodup .empty hkeys fun _ _ => Dictionary.get?_empty _
  have hbody : (Ledger.resourceOf ds d.key).body = .attributes attributes := by
    rw [body_resourceOf hd, if_pos hsole, Body.ofJson, unwraps_iff.1 hunwraps]
    exact hcollected
  refine ⟨_, mem_resources_ofDeclarations.2 ⟨d.key, List.mem_map_of_mem hd, rfl⟩, rfl,
    ⟨attributes, hbody⟩, fun key value => ?_⟩
  rw [Resource.attribute?, Resource.attributes, hbody, hvalues]
  simp [Json.plainOf_iff, eq_comm]

theorem isTakenFrom_ofDeclarations {ds : List Declaration} {r : Resource}
    (hr : r ∈ (ofDeclarations ds).resources) : r.IsTakenFrom ds := by
  intro attributes hbody
  obtain ⟨key, hkey, rfl⟩ := mem_resources_ofDeclarations.1 hr
  obtain ⟨d, hd, rfl⟩ := List.mem_map.1 hkey
  have hvalue (query : String) : (Ledger.resourceOf ds d.key).attribute? query =
      attributes.get? query := by
    rw [Resource.attribute?, Resource.attributes, hbody]
  rw [body_resourceOf hd] at hbody
  split at hbody
  · rename_i hsole
    cases Body.reads_iff.2 hbody with
    | @wellFormed members _ hunwraps hkeys hvalues =>
        refine ⟨d, hd, rfl, hsole, members, hunwraps, hkeys, fun query value => ?_⟩
        simp only [hvalue, hvalues, Json.plainOf_iff, eq_comm]
  · cases hbody

/-- Whatever a text says, reading it as a tree and making that plain is reading it plainly: in front
of other text, as a whole, and for each attribute of a configuration. Every resource with
attributes has them from its declaration, and no well-formed declaration is lost. -/
theorem values_plain (text : String) :
    (∀ j rest, (Json.Reader.value .tree Json.Reader.deepest).read text.toList = .ok (j, rest) →
      ∀ value, (Json.Reader.value .plain Json.Reader.deepest).read text.toList =
        .ok (value, rest) ↔ Json.PlainOf j value) ∧
    (∀ j, Json.readTree text = .ok j → Json.readPlain text = .ok j.plain ∧
      ∀ value, Json.readPlain text = .ok value ↔ Json.PlainOf j value) ∧
    (∀ refusal, Json.readPlain text = .error refusal ↔ Json.readTree text = .error refusal) ∧
    ∀ c, parse text = .ok c → ∃ document, Json.readTree text = .ok document ∧
      (∀ r ∈ c.resources, r.IsTakenFrom (occurrences document)) ∧
      ∀ d ∈ occurrences document, d.IsDelivered (occurrences document) c := by
  refine ⟨fun j rest h value => Json.read_plain_iff h,
    fun j h => ⟨Json.readPlain_of_readTree h, fun value => Json.readPlain_eq_ok_iff h⟩,
    fun refusal => Json.readPlain_eq_error_iff, fun c hparse => ?_⟩
  obtain ⟨document, hdocument, hc⟩ := parse_eq_ok hparse
  rw [ofJson_eq_ok hc]
  exact ⟨document, hdocument, fun r hr => isTakenFrom_ofDeclarations hr,
    fun d hd => isDelivered_ofDeclarations hd⟩

/-- A document whose attribute has keys that come again at two depths. -/
def repeatedWithin : Json :=
  .object [("vm", .object [("web", .object [("tags", .object
    [("a", .bool true), ("b", .object [("c", .string "x"), ("c", .list [.number (.int 1)])]),
      ("a", .null)])])])]

theorem values_plain_repeatedWithin :
    Json.readPlain repeatedWithin.compact = .ok (.object [("vm", .object [("web", .object
      [("tags", .object [("a", .null),
        ("b", .object [("c", .list [.number (.int 1)])])])])])]) := by
  have hlegible : Json.Legible Json.Reader.deepest repeatedWithin := by decide
  have hread : Json.readTree repeatedWithin.compact = .ok repeatedWithin :=
    Json.readTree_write hlegible .none
  exact ((values_plain repeatedWithin.compact).2.1 _ hread).1

end Configuration

end ResourceAudit
