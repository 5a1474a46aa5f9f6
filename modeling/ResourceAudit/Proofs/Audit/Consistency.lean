import ResourceAudit.Proofs.Audit.Account
import Mathlib.Data.List.Infix

/-!
# Reports agree with themselves

The figures of a report come from the configuration, the registry, the run and the tallies. They
agree with each other and with the findings on every input and whatever happens to the token
(`consistent_of_audit_eq_ok`), as long as no number of them takes more than 32 bits.
-/

namespace ResourceAudit

/-! ## Addresses -/

/-- Without dots in types, what stands in an address before the first dot is the type. -/
theorem Finding.takeWhile_address {f : Finding} (h : '.' ∉ f.resourceType.toList) :
    f.address.toList.takeWhile (· ≠ '.') = f.resourceType.toList := by
  have hchars : f.address.toList = f.resourceType.toList ++ '.' :: f.resourceName.toList := by
    simp [address, toString]
  have hbefore : ∀ c ∈ f.resourceType.toList, decide (c ≠ '.') = true := by
    intro c hc
    simpa using fun heq : c = '.' => h (heq ▸ hc)
  rw [hchars, List.takeWhile_append_of_pos hbefore, List.takeWhile_cons_of_neg (by simp),
    List.append_nil]

theorem Finding.eq_of_address_eq {f g : Finding} (hf : '.' ∉ f.resourceType.toList)
    (hg : '.' ∉ g.resourceType.toList) (h : f.address = g.address) :
    f.resourceType = g.resourceType ∧ f.resourceName = g.resourceName := by
  have htype : f.resourceType = g.resourceType := by
    rw [← String.toList_inj, ← takeWhile_address hf, ← takeWhile_address hg, h]
  rw [address, address, htype] at h
  exact ⟨htype, by simpa [toString] using h⟩

/-- A finding of built-in checks is about a type without a dot. -/
theorem Finding.dot_notMem_of_mem_due {enabled : List Check} {ds : List Declaration}
    (henabled : ∀ check ∈ enabled, check ∈ Builtin.checks) {f : Finding}
    (hf : f ∈ due enabled ds) : '.' ∉ f.resourceType.toList := by
  obtain ⟨key, _, check, hcheck, hsupports, rfl⟩ := mem_due.1 hf
  have htype : key.1 ∈ check.info.resourceTypes := by simpa [CheckInfo.supports] using hsupports
  exact Builtin.dot_notMem_supported check (henabled check hcheck) key.1 htype

/-! ## Consistency -/

/-- The parts of a report agree with each other, with the enabled checks and with what is
declared. -/
structure Report.Consistent (r : Report) (enabled : List Check) (ds : List Declaration) : Prop where
  sorted : r.findings.Pairwise Finding.Precedes
  subjects : (r.findings.map Finding.subject).Nodup
  addresses : (r.findings.map fun f => (f.address, f.checkId)).Nodup
  tallied : Finding.Tallied r.findings r.scan.counts r.scan.byCategory
  resources : r.scan.resources.toNat = (ds.map Declaration.key).toFinset.card
  resourceTypes : r.scan.resourceTypes.toNat = (ds.map (·.type)).toFinset.card
  checks : r.scan.checks.toNat = enabled.length
  length_le : r.findings.length ≤ ∑ key ∈ (ds.map Declaration.key).toFinset,
    enabled.countP fun check => check.info.supports key.1
  length_eq : r.scan.isPartial = false →
    r.findings.length = ∑ key ∈ (ds.map Declaration.key).toFinset,
      enabled.countP fun check => check.info.supports key.1
  pass : r.outcome = .pass ↔ r.scan.counts.failed = 0 ∧ r.scan.isPartial = false

theorem Declaration.card_types_le (ds : List Declaration) :
    (ds.map (·.type)).toFinset.card ≤ (ds.map Declaration.key).toFinset.card := by
  have htypes : (ds.map (·.type)).toFinset = (ds.map Declaration.key).toFinset.image Prod.fst := by
    ext type
    simp [Declaration.key]
  rw [htypes]
  exact Finset.card_image_le

namespace Report.Accounts

variable {r : Report} {enabled : List Check} {ds : List Declaration}

theorem consistent (h : r.Accounts enabled ds) (henabled : enabled.Sublist Builtin.checks)
    (hfindings : r.findings.length < 2 ^ 32)
    (hresources : (ds.map Declaration.key).toFinset.card < 2 ^ 32) : r.Consistent enabled ds := by
  have hids : (enabled.map (·.id)).Nodup := Builtin.nodup_id_checks.sublist (henabled.map _)
  have hsubjects : (r.findings.map Finding.subject).Nodup :=
    Finding.nodup_subject_of_subperm_due hids h.findings
  have hdots {f : Finding} (hf : f ∈ r.findings) : '.' ∉ f.resourceType.toList :=
    Finding.dot_notMem_of_mem_due (fun _ hcheck => henabled.subset hcheck)
      (h.findings.subset hf)
  constructor
  case sorted => exact h.sorted
  case subjects => exact hsubjects
  case addresses =>
    -- An address leads back to its pair, as the types of built-in checks have no dots.
    refine hsubjects.of_map.map_on fun f hf g hg heq => ?_
    obtain ⟨haddress, hid⟩ := Prod.ext_iff.1 heq
    obtain ⟨htype, hname⟩ := Finding.eq_of_address_eq (hdots hf) (hdots hg) haddress
    exact List.inj_on_of_nodup_map hsubjects hf hg (Prod.ext (Prod.ext htype hname) hid)
  case tallied => exact h.tallied hfindings
  case resources =>
    rw [h.resources]
    exact UInt32.toNat_ofNat_of_lt' hresources
  case resourceTypes =>
    rw [h.resourceTypes]
    exact UInt32.toNat_ofNat_of_lt' ((Declaration.card_types_le ds).trans_lt hresources)
  case checks =>
    rw [h.checks]
    exact UInt32.toNat_ofNat_of_lt' (henabled.length_le.trans_lt (by decide))
  case length_le =>
    rw [← Finding.length_due]
    exact h.findings.length_le
  case length_eq =>
    intro hwhole
    rw [h.whole hwhole, (Finding.sort_perm _).length_eq, Finding.length_due]
  case pass => rw [h.outcome, (h.tallied hfindings).failed_eq_zero_iff, and_comm]

end Report.Accounts

/-- Whatever the build, the settings, the document and the token, a report with fewer than 2³²
findings about fewer than 2³² pairs is consistent. -/
theorem consistent_of_audit_eq_ok {b : Build} {q : AuditRequest} {a : Audit} {document : Json}
    (h : audit b q = .ok a) (hdocument : Json.readTree q.document = .ok document)
    (hfindings : a.report.findings.length < 2 ^ 32)
    (hresources : ((occurrences document).map Declaration.key).toFinset.card < 2 ^ 32) :
    a.report.Consistent (a.plan.enabledIn b) (occurrences document) := by
  obtain ⟨_, _, hread, haccounts⟩ := accounts_of_audit_eq_ok h
  obtain rfl := Except.ok.inj (hdocument.symm.trans hread)
  exact haccounts.consistent (a.plan.enabledIn_sublist b) hfindings hresources

/-- Two instances, of which the name of one begins like an address, and a token that is cancelled
before the second one is reached. -/
def cancelledBetween : AuditRequest where
  settings := ""
  document := Json.compact <| .object [("aws_instance", .object [("a.b", .null), ("a", .null)])]
  overrides := ⟨none, none⟩
  token := some 1
  cancelled := []
  around := ⟨fun place => if place = 1 then [1] else [], inOrder⟩
  startedAt := .epoch

theorem consistent_cancelledBetween :
    ∃ a document, audit .full cancelledBetween = .ok a ∧ a.report.scan.isPartial = true ∧
      Json.readTree cancelledBetween.document = .ok document ∧
      a.report.Consistent (a.plan.enabledIn .full) (occurrences document) := by
  have hpartial : (audit .full cancelledBetween).toOption.map (·.report.scan.isPartial) =
      some true := by
    decide +kernel
  have hpairs : (Json.readTree cancelledBetween.document).toOption.map
      (fun document => (occurrences document).length) = some 2 := by
    decide +kernel
  obtain ⟨a, ha, hcancelled⟩ := Option.map_eq_some_iff.1 hpartial
  obtain ⟨document, hread, hlength⟩ := Option.map_eq_some_iff.1 hpairs
  have hok := toOption_eq_some.1 ha
  have hdocument := toOption_eq_some.1 hread
  refine ⟨a, document, hok, hcancelled, hdocument, ?_⟩
  have hcard := List.toFinset_card_le ((occurrences document).map Declaration.key)
  rw [List.length_map, hlength] at hcard
  have hfindings := length_findings_le_of_audit_eq_ok hok hdocument
  rw [hlength] at hfindings
  exact consistent_of_audit_eq_ok hok hdocument (hfindings.trans_lt (by decide)) (by omega)

end ResourceAudit
