import ResourceAudit.Proofs.Report.Encoding
import ResourceAudit.Proofs.Schema.Conformance
import ResourceAudit.Report.Schema

/-!
# Reports conform to their schema

Every report that is written conforms to the schema of reports as it is published
(`Report.serialize_conforms`), whatever its texts and counts are and whatever it leaves out.
-/

namespace ResourceAudit

variable {root : Json}

/-! ## Values -/

namespace Schema

theorem admits_string (root : Json) (text : String) : Schema.string.Admits root (.string text) :=
  admits_kinds_iff.2 (List.mem_singleton.2 rfl)

theorem admits_boolean (root : Json) (b : Bool) : Schema.boolean.Admits root (.bool b) :=
  admits_kinds_iff.2 (List.mem_singleton.2 rfl)

theorem admits_orNull_string (root : Json) (text : String) :
    (Schema.orNull .string).Admits root (.string text) :=
  admits_kinds_iff.2 List.mem_cons_self

theorem admits_ofWord (root : Json) (w : UInt32) : Schema.word.Admits root (.ofWord w) := by
  refine admits_word_iff.2 ⟨.int w.toNat, rfl, ?_⟩
  have hlt : (w.toNat : Int) < UInt32.size := Int.ofNat_lt.2 w.toNat_lt_size
  rw [Number.isWord, Number.isWhole, Number.isAtLeast, Number.isBelow, Bool.true_and,
    Bool.and_eq_true, decide_eq_true_eq, decide_eq_true_eq]
  exact ⟨Int.natCast_nonneg _, hlt⟩

theorem admits_tag {names : List String} {name : String} (root : Json) (h : name ∈ names) :
    (tags names).Admits root (.string name) :=
  admits_tags_iff.2 ⟨name, h, rfl⟩

end Schema

/-! ## Parts of reports -/

theorem Tool.admits (h : Tool.layout.DefinedIn root) (t : Tool) :
    Tool.layout.Admits root t.toJson := by
  refine (Schema.admits_named_iff h.named.1).2 (Schema.admits_record_iff.2 ⟨_, rfl, ?_⟩)
  simp [Schema.admits_string]

theorem Tally.admits (h : Tally.layout.DefinedIn root) (t : Tally) :
    Tally.layout.Admits root t.toJson := by
  refine (Schema.admits_named_iff h.named.1).2 (Schema.admits_record_iff.2 ⟨_, rfl, ?_⟩)
  simp [Schema.admits_ofWord]

theorem Verdict.admits (h : Verdict.layout.DefinedIn root) (v : Verdict) :
    Verdict.layout.Admits root (.string v.name) := by
  refine (Schema.admits_named_iff h.named.1).2 (Schema.admits_described_iff.2 ?_)
  exact Schema.admits_tag root (List.mem_map_of_mem (by cases v <;> decide))

theorem Category.admits (h : Category.layout.DefinedIn root) (c : Category) :
    Category.layout.Admits root (.string c.tag) := by
  refine (Schema.admits_named_iff h.named.1).2 (Schema.admits_described_iff.2 ?_)
  exact Schema.admits_tag root (List.mem_map_of_mem (by cases c <;> decide))

theorem Outcome.admits (h : Outcome.layout.DefinedIn root) (o : Outcome) :
    Outcome.layout.Admits root (.string o.name) :=
  (Schema.admits_named_iff h.named.1).2
    (Schema.admits_tag root (List.mem_map_of_mem (by cases o <;> decide)))

theorem Finding.admits (h : Finding.layout.DefinedIn root) (f : Finding) :
    Finding.layout.Admits root f.toJson := by
  obtain ⟨hlayout, hbody⟩ := h.named
  have hfields := hbody.described.record
  simp only [List.forall_mem_cons] at hfields
  obtain ⟨-, -, -, -, hverdicts, hcategories, -⟩ := hfields
  have hverdict := Verdict.admits hverdicts f.verdict
  have hcategory := Category.admits hcategories.described f.category
  refine (Schema.admits_named_iff hlayout).2 (Schema.admits_described_iff.2
    (Schema.admits_record_iff.2 ⟨_, rfl, ?_⟩))
  cases f.note <;>
    simp [Json.optionalMember, Schema.admits_described_iff, Schema.admits_string,
      Schema.admits_orNull_string, hverdict, hcategory]

theorem CategoryTallies.admits (h : Tally.layout.DefinedIn root) (ts : CategoryTallies) :
    (Schema.dictionary Tally.layout).Admits root (CategoryTallies.toJson ts) := by
  refine Schema.admits_dictionary_iff.2 ⟨_, rfl, ?_⟩
  intro m hm
  obtain ⟨e, -, rfl⟩ := List.mem_map.1 hm
  exact Tally.admits h e.2

theorem Scan.admits (h : Scan.layout.DefinedIn root) (s : Scan) :
    Scan.layout.Admits root s.toJson := by
  obtain ⟨hlayout, hbody⟩ := h.named
  have hfields := hbody.described.record
  simp only [List.forall_mem_cons] at hfields
  obtain ⟨-, -, -, -, htally, -⟩ := hfields
  have hcounts := Tally.admits htally s.counts
  have hcategories := CategoryTallies.admits htally s.byCategory
  refine (Schema.admits_named_iff hlayout).2 (Schema.admits_described_iff.2
    (Schema.admits_record_iff.2 ⟨_, rfl, ?_⟩))
  cases s.isPartial <;> cases s.error <;>
    simp [Json.optionalMember, Schema.admits_described_iff, Schema.admits_defaulting_iff,
      Schema.admits_string, Schema.admits_boolean, Schema.admits_ofWord,
      Schema.admits_orNull_string, hcounts, hcategories]

namespace Report

theorem admits (h : layout.DefinedIn root) (r : Report) : layout.Admits root r.toJson := by
  have hfields := h.described.record
  simp only [List.forall_mem_cons] at hfields
  obtain ⟨-, htools, -, -, houtcomes, hrecords, hscans, -⟩ := hfields
  have htool := Tool.admits htools r.tool
  have houtcome := Outcome.admits houtcomes r.outcome
  have hscan := Scan.admits hscans r.scan
  have hfindings : (Schema.list Finding.layout).Admits root
      (.list (r.findings.map (·.toJson))) := by
    refine Schema.admits_list_iff.2 ⟨_, rfl, ?_⟩
    intro j hj
    obtain ⟨f, -, rfl⟩ := List.mem_map.1 hj
    exact Finding.admits hrecords f
  refine Schema.admits_described_iff.2 (Schema.admits_record_iff.2 ⟨_, rfl, ?_⟩)
  simp [Schema.admits_described_iff, Schema.admits_string, htool, houtcome, hscan, hfindings]

/-! ## The published schema -/

/-- The schema of reports as it is published. -/
def schemaDocument : Json := layout.document "ReportEnvelope"

theorem layout_definedIn : layout.DefinedIn schemaDocument :=
  -- The references of the named parts in turn, followed in the document.
  List.forall_mem_cons.2 ⟨rfl, List.forall_mem_cons.2 ⟨rfl, List.forall_mem_cons.2 ⟨rfl,
    List.forall_mem_cons.2 ⟨rfl, List.forall_mem_cons.2 ⟨rfl, List.forall_mem_cons.2 ⟨rfl,
    List.forall_mem_cons.2 ⟨rfl, List.forall_mem_cons.2 ⟨rfl, List.forall_mem_nil _⟩⟩⟩⟩⟩⟩⟩⟩

theorem readPlain_schemaText : Json.readPlain schemaText = .ok schemaDocument := by
  have hlegible : Json.Legible Json.Reader.deepest schemaDocument := by decide +kernel
  have hplain : schemaDocument.plain = schemaDocument := rfl
  have hread : Json.readPlain schemaText = .ok schemaDocument.plain :=
    Json.readPlain_write hlegible .lines
  rw [hread, hplain]

/-- Whatever a report says and leaves out, its text is a document that conforms to the document of
the published schema. -/
theorem serialize_conforms (r : Report) :
    ∃ schema document, Json.readPlain schemaText = .ok schema ∧
      Json.readPlain r.serialize = .ok document ∧ Conforms schema schema document := by
  refine ⟨schemaDocument, r.toJson, readPlain_schemaText, ?_, ?_⟩
  · have hread : Json.readPlain r.serialize = .ok r.toJson.plain :=
      Json.readPlain_write (r.legible 123) .lines
    rw [hread, r.plain_toJson]
  · exact Schema.conforms_document_iff.2 (r.admits layout_definedIn)

end Report

end ResourceAudit
