import ResourceAudit.Proofs.Decode
import ResourceAudit.Proofs.Json.Plain
import ResourceAudit.Proofs.Json.Writer
import ResourceAudit.Report.Decode

/-!
# Reports as trees

The decoder of a report undoes its encoding as a tree (`Decoder.report_undoes`), part by part, and
the tree is one that a text can hold.
-/

namespace ResourceAudit

namespace Decoder

/-! ## Names -/

theorem verdict_undoes : Undoes verdict fun v => .string v.name :=
  tag_undoes (by intro v; cases v <;> decide) (by intro v w; cases v <;> cases w <;> decide)

theorem category_undoes : Undoes category fun c => .string c.tag :=
  tag_undoes (by intro c; cases c <;> decide) (by intro c e; cases c <;> cases e <;> decide)

theorem outcome_undoes : Undoes outcome fun o => .string o.name :=
  tag_undoes (by intro o; cases o <;> decide) (by intro o p; cases o <;> cases p <;> decide)

/-! ## Records -/

theorem tool_undoes : Undoes tool Tool.toJson := by
  intro t
  refine record_object (by decide) ?_ ?_
  · exact .given (string_undoes.fault? _ _) (.given (string_undoes.fault? _ _) .nil)
  · exact bind_eq_ok.2 ⟨_, string_undoes.required t.name rfl,
      bind_eq_ok.2 ⟨_, string_undoes.required t.version rfl, rfl⟩⟩

theorem tally_undoes : Undoes tally Tally.toJson := by
  intro t
  refine record_object (by decide) ?_ ?_
  · exact .given (word_undoes.fault? _ _) (.given (word_undoes.fault? _ _)
      (.given (word_undoes.fault? _ _) .nil))
  · exact bind_eq_ok.2 ⟨_, word_undoes.required t.passed rfl,
      bind_eq_ok.2 ⟨_, word_undoes.required t.failed rfl,
        bind_eq_ok.2 ⟨_, word_undoes.required t.skipped rfl, rfl⟩⟩⟩

theorem finding_undoes : Undoes finding Finding.toJson := by
  intro f
  refine record_object (by decide) ?_ ?_
  · exact .given (string_undoes.fault? _ _) <| .given (string_undoes.fault? _ _) <|
      .given (string_undoes.fault? _ _) <| .given (string_undoes.fault? _ _) <|
      .given (verdict_undoes.fault? _ _) <| .given (category_undoes.fault? _ _) <|
      .optionalMember "note" f.note
  · exact bind_eq_ok.2 ⟨_, string_undoes.required f.checkId rfl,
      bind_eq_ok.2 ⟨_, string_undoes.required f.checkName rfl,
      bind_eq_ok.2 ⟨_, string_undoes.required f.resourceType rfl,
      bind_eq_ok.2 ⟨_, string_undoes.required f.resourceName rfl,
      bind_eq_ok.2 ⟨_, verdict_undoes.required f.verdict rfl,
      bind_eq_ok.2 ⟨_, category_undoes.required f.category rfl,
      bind_eq_ok.2 ⟨_, defaulted_optionalMember f.note rfl, rfl⟩⟩⟩⟩⟩⟩⟩

theorem scan_undoes : Undoes scan Scan.toJson := by
  intro s
  obtain ⟨profile, resourceTypes, resources, checks, counts, byCategory, isPartial, error⟩ := s
  refine record_object (by decide) ?_ ?_
  · refine .given (string_undoes.fault? _ _) <| .given (word_undoes.fault? _ _) <|
      .given (word_undoes.fault? _ _) <| .given (word_undoes.fault? _ _) <|
      .given (tally_undoes.fault? _ _) <| .given (tally_undoes.dictionary.fault? _ _) ?_
    cases isPartial with
    | false => exact .omitted (.optionalMember "runtime_error" error)
    | true => exact .given (boolean_undoes.fault? _ _) (.optionalMember "runtime_error" error)
  · refine bind_eq_ok.2 ⟨_, string_undoes.required profile rfl,
      bind_eq_ok.2 ⟨_, word_undoes.required resourceTypes rfl,
      bind_eq_ok.2 ⟨_, word_undoes.required resources rfl,
      bind_eq_ok.2 ⟨_, word_undoes.required checks rfl,
      bind_eq_ok.2 ⟨_, tally_undoes.required counts rfl,
      bind_eq_ok.2 ⟨_, tally_undoes.dictionary.defaulted .empty byCategory rfl,
      bind_eq_ok.2 ⟨isPartial, ?_,
      bind_eq_ok.2 ⟨_, defaulted_optionalMember error ?_, rfl⟩⟩⟩⟩⟩⟩⟩⟩
    · cases isPartial with
      | false => exact defaulted_omitted boolean false (find?_optionalMember _ _ error)
      | true => exact boolean_undoes.defaulted false true rfl
    · cases isPartial <;> rfl

theorem report_undoes : Undoes report Report.toJson := by
  intro r
  refine record_object (by decide) ?_ ?_
  · exact .given (string_undoes.fault? _ _) <| .given (tool_undoes.fault? _ _) <|
      .given (timestamp_undoes.fault? _ _) <| .given (timestamp_undoes.fault? _ _) <|
      .given (outcome_undoes.fault? _ _) <| .given (finding_undoes.sequence.fault? _ _) <|
      .given (scan_undoes.fault? _ _) .nil
  · exact bind_eq_ok.2 ⟨_, string_undoes.required r.schema rfl,
      bind_eq_ok.2 ⟨_, tool_undoes.required r.tool rfl,
      bind_eq_ok.2 ⟨_, timestamp_undoes.required r.startedAt rfl,
      bind_eq_ok.2 ⟨_, timestamp_undoes.required r.finishedAt rfl,
      bind_eq_ok.2 ⟨_, outcome_undoes.required r.outcome rfl,
      bind_eq_ok.2 ⟨_, finding_undoes.sequence.required r.findings rfl,
      bind_eq_ok.2 ⟨_, scan_undoes.required r.scan rfl, rfl⟩⟩⟩⟩⟩⟩⟩

end Decoder

/-! ## Legible encodings -/

section

open Json

variable (depth : Nat)

theorem Json.legible_ofWord (w : UInt32) : Legible depth (.ofWord w) := by
  have hw := w.toNat_lt
  exact .integer ⟨by omega, by simp [UInt64.size]; omega⟩

theorem Json.legible_optionalMember (name : String) (o : Option String) :
    ∀ m ∈ optionalMember name .string o, Legible depth m.2 := by
  cases o with
  | none => exact nofun
  | some s => exact List.forall_mem_singleton.2 (.string s)

theorem Tool.legible (t : Tool) : Legible (depth + 1) t.toJson :=
  .object <| List.forall_mem_cons.2 ⟨.string _, List.forall_mem_cons.2 ⟨.string _, nofun⟩⟩

theorem Tally.legible (t : Tally) : Legible (depth + 1) t.toJson :=
  .object <| List.forall_mem_cons.2 ⟨legible_ofWord _ _,
    List.forall_mem_cons.2 ⟨legible_ofWord _ _, List.forall_mem_cons.2 ⟨legible_ofWord _ _, nofun⟩⟩⟩

theorem Finding.legible (f : Finding) : Legible (depth + 1) f.toJson :=
  .object <| List.forall_mem_append.2
    ⟨List.forall_mem_cons.2 ⟨.string _, List.forall_mem_cons.2 ⟨.string _,
      List.forall_mem_cons.2 ⟨.string _, List.forall_mem_cons.2 ⟨.string _,
      List.forall_mem_cons.2 ⟨.string _, List.forall_mem_cons.2 ⟨.string _, nofun⟩⟩⟩⟩⟩⟩,
    legible_optionalMember depth "note" f.note⟩

theorem CategoryTallies.legible (ts : CategoryTallies) :
    Legible (depth + 2) (CategoryTallies.toJson ts) := by
  refine .object fun m hm => ?_
  obtain ⟨e, -, rfl⟩ := List.mem_map.1 hm
  exact e.2.legible depth

theorem Scan.legible (s : Scan) : Legible (depth + 3) s.toJson := by
  refine .object <| List.forall_mem_append.2 ⟨List.forall_mem_append.2 ⟨?_, ?_⟩,
    legible_optionalMember _ "runtime_error" s.error⟩
  · exact List.forall_mem_cons.2 ⟨.string _, List.forall_mem_cons.2 ⟨legible_ofWord _ _,
      List.forall_mem_cons.2 ⟨legible_ofWord _ _, List.forall_mem_cons.2 ⟨legible_ofWord _ _,
      List.forall_mem_cons.2 ⟨s.counts.legible _, List.forall_mem_cons.2
        ⟨CategoryTallies.legible _ s.byCategory, nofun⟩⟩⟩⟩⟩⟩
  · cases s.isPartial with
    | false => exact nofun
    | true => exact List.forall_mem_singleton.2 (.bool true)

theorem Report.legible (r : Report) : Legible (depth + 4) r.toJson := by
  have hfindings : ∀ j ∈ r.findings.map Finding.toJson, Legible (depth + 2) j := by
    intro j hj
    obtain ⟨f, -, rfl⟩ := List.mem_map.1 hj
    exact f.legible (depth + 1)
  exact .object <| List.forall_mem_cons.2 ⟨.string _, List.forall_mem_cons.2 ⟨r.tool.legible _,
    List.forall_mem_cons.2 ⟨.string _, List.forall_mem_cons.2 ⟨.string _,
    List.forall_mem_cons.2 ⟨.string _, List.forall_mem_cons.2 ⟨.list hfindings,
    List.forall_mem_cons.2 ⟨r.scan.legible _, nofun⟩⟩⟩⟩⟩⟩⟩

end

/-! ## Encodings have one member for each key -/

theorem Finding.plain_toJson (f : Finding) : f.toJson.plain = f.toJson := by
  obtain ⟨checkId, checkName, resourceType, resourceName, verdict, category, note⟩ := f
  cases note <;> rfl

theorem CategoryTallies.plain_toJson (ts : CategoryTallies) :
    (CategoryTallies.toJson ts).plain = CategoryTallies.toJson ts := by
  have hkeys : (ts.entries.map fun e => (e.1, e.2.toJson)).map (·.1) = ts.entries.map (·.1) :=
    List.map_map
  refine Json.plain_object (hkeys ▸ ts.nodup_keys) fun m hm => ?_
  obtain ⟨e, -, rfl⟩ := List.mem_map.1 hm
  rfl

theorem Scan.plain_toJson (s : Scan) : s.toJson.plain = s.toJson := by
  obtain ⟨profile, resourceTypes, resources, checks, counts, byCategory, isPartial, error⟩ := s
  have hcategories := CategoryTallies.plain_toJson byCategory
  rw [Scan.toJson]
  cases isPartial <;> cases error
  all_goals
    simp only [Json.optionalMember, if_true, Bool.false_eq_true, if_false, List.append_nil,
      List.cons_append, List.nil_append, Json.plain, Json.plainMembers, hcategories]
    rfl

theorem Report.plain_toJson (r : Report) : r.toJson.plain = r.toJson := by
  have hfindings : (Json.list (r.findings.map Finding.toJson)).plain = .list _ :=
    Json.plain_list fun j hj => by
      obtain ⟨f, -, rfl⟩ := List.mem_map.1 hj
      exact f.plain_toJson
  have hscan := r.scan.plain_toJson
  rw [Report.toJson, Json.plain]
  simp only [Json.plainMembers, hfindings, hscan]
  rfl

end ResourceAudit
