import ResourceAudit.Proofs.Report.Encoding

/-!
# Reports and their texts

Reading a report undoes writing it (`Report.parse_serialize`). So writing what was read settles a
text: it is read as the same report from then on, and written with the same characters
(`Report.parse_undoes_serialize`).
-/

namespace ResourceAudit

namespace Report

/-! ## The layout that a report claims -/

theorem claimedSchema_eq {document : Json} (h : claimedSchema document = schemaId) :
    ∃ members, document = .object members ∧
      Json.find? "schema" members = some (.string schemaId) := by
  unfold claimedSchema at h
  split at h
  · rename_i s hfield
    cases document with
    | object members => exact ⟨members, rfl, h ▸ hfield⟩
    | _ => cases hfield
  · exact absurd h (by decide)

theorem schema_of_report_eq_ok {members : List (String × Json)} {s : String} {r : Report}
    (hfind : Json.find? "schema" members = some (.string s))
    (h : Decoder.report (.object members) = .ok r) : r.schema = s := by
  simp only [Decoder.report, Decoder.record] at h
  split at h
  · cases h
  · obtain ⟨schema, hschema, h⟩ := bind_eq_ok.1 h
    obtain ⟨_, _, h⟩ := bind_eq_ok.1 h
    obtain ⟨_, _, h⟩ := bind_eq_ok.1 h
    obtain ⟨_, _, h⟩ := bind_eq_ok.1 h
    obtain ⟨_, _, h⟩ := bind_eq_ok.1 h
    obtain ⟨_, _, h⟩ := bind_eq_ok.1 h
    obtain ⟨_, _, h⟩ := bind_eq_ok.1 h
    rw [Decoder.string_undoes.required s hfind] at hschema
    cases hschema
    cases h
    rfl

theorem schema_of_parse_eq_ok {text : String} {r : Report} (h : parse text = .ok r) :
    r.schema = schemaId := by
  unfold parse ofJson at h
  split at h
  · cases h
  · split at h
    · rename_i document _ hclaimed
      obtain ⟨members, rfl, hfind⟩ := claimedSchema_eq hclaimed
      exact schema_of_report_eq_ok hfind (mapError_eq_ok.1 h)
    · cases h

/-! ## Writing and reading -/

theorem parse_serialize {r : Report} (hschema : r.schema = schemaId) :
    parse r.serialize = .ok r := by
  have hread : Json.readPlain r.serialize = .ok r.toJson.plain :=
    Json.readPlain_write (r.legible 123) .lines
  have hclaimed : claimedSchema r.toJson = schemaId := hschema
  rw [parse, hread, r.plain_toJson]
  simp only [ofJson, hclaimed, if_true]
  exact mapError_eq_ok.2 (Decoder.report_undoes r)

theorem parse_undoes_serialize :
    (∀ r, parse r.serialize = .ok r ↔ r.schema = schemaId) ∧
    ∀ text r, parse text = .ok r →
      ∃ again, parse r.serialize = .ok again ∧ again = r ∧ again.serialize = r.serialize := by
  constructor
  · intro r
    exact ⟨schema_of_parse_eq_ok, parse_serialize⟩
  · intro text r h
    exact ⟨r, parse_serialize (schema_of_parse_eq_ok h), rfl, rfl⟩

/-- A report in another layout: records as lists that leave their last fields out, a verdict as an
object, keys in another order, unknown or repeated, and a leap second. -/
def foreignDocument : Json :=
  .object
    [("schema", .string "other"), ("extra", .null), ("schema", .string schemaId),
      ("records", .list [.list [.string "A", .string "a\"\\\n\x00\u2028", .string "vm",
        .string "web", .object [("FAILED", .null)], .string "iam"]]),
      ("tool", .list [.string "t", .string "1"]), ("verdict", .string "fail"),
      ("finished_at", .string "2016-12-31 22:29:60-01:30"),
      ("started_at", .string "2016-12-31T23:59:08.120z"),
      ("data", .list [.string "p", .ofWord 1, .ofWord 1, .ofWord 1,
        .list [.ofWord 0, .ofWord 4294967295, .ofWord 0]])]

theorem foreignDocument_legible : Json.Legible Json.Reader.deepest foreignDocument := by decide

theorem foreignDocument_settles :
    ∃ r again, parse foreignDocument.compact = .ok r ∧ parse r.serialize = .ok again ∧
      again = r ∧ again.serialize = r.serialize := by
  have hread : parse foreignDocument.compact = ofJson foreignDocument.plain := by
    have hplain : Json.readPlain foreignDocument.compact = .ok foreignDocument.plain :=
      Json.readPlain_write foreignDocument_legible .none
    rw [parse, hplain]
  have hdecodes : (ofJson foreignDocument.plain).toOption.isSome = true := by decide +kernel
  cases hparse : ofJson foreignDocument.plain with
  | error e => simp [hparse, Except.toOption] at hdecodes
  | ok r =>
      obtain ⟨again, hagain⟩ :=
        parse_undoes_serialize.2 foreignDocument.compact r (hread.trans hparse)
      exact ⟨r, again, hread.trans hparse, hagain⟩

end Report

end ResourceAudit
