import ResourceAudit.Proofs.Audit.Account
import ResourceAudit.Proofs.Evaluation.Findings
import ResourceAudit.Proofs.Json.Writer
import ResourceAudit.Proofs.Text.Digits

/-!
# Fewer checks

To disable checks removes their findings from the report and nothing else
(`narrows_of_enabled_subset`). Whether a document is refused does not depend on the checks, a
finding is the same whatever other checks run, and to sort comes to the same before and after some
findings are left out. Counts are words of 32 bits: past them, fewer checks may count more
(`not_countsWithin_crowd`).
-/

namespace ResourceAudit

/-- The report says of the checks with some ids what the other report says of them. -/
structure Report.Narrows (r : Report) (ids : List String) (r' : Report) : Prop where
  findings : r.findings = r'.findings.filter fun f => f.checkId ∈ ids
  resources : r.scan.resources = r'.scan.resources
  resourceTypes : r.scan.resourceTypes = r'.scan.resourceTypes
  pass : r'.outcome = .pass → r.outcome = .pass

/-- The report counts no more than the other one, neither in all nor in any category. -/
structure Report.CountsWithin (r r' : Report) : Prop where
  counts : ∀ v, r.scan.counts.get v ≤ r'.scan.counts.get v
  byCategory : ∀ tag row, r.scan.byCategory.get? tag = some row →
    ∃ row', r'.scan.byCategory.get? tag = some row' ∧ ∀ v, row.get v ≤ row'.get v

namespace Report.Accounts

variable {r r' : Report} {enabled enabled' : List Check} {ds : List Declaration}

theorem findings_eq_filter (h : r.Accounts enabled ds) (h' : r'.Accounts enabled' ds)
    (hids : (enabled'.map (·.id)).Nodup)
    (henabled : enabled = enabled'.filter fun check => check.id ∈ enabled.map (·.id))
    (hwhole : r.scan.isPartial = false) (hwhole' : r'.scan.isPartial = false) :
    r.findings = r'.findings.filter fun f => f.checkId ∈ enabled.map (·.id) := by
  have hkeys := Finding.eq_of_order_eq_eq (Finding.nodup_subject_due hids ds)
  rw [h.whole hwhole, h'.whole hwhole', Finding.filter_sort _ hkeys, Finding.filter_checkId_due,
    ← henabled]

theorem narrows (h : r.Accounts enabled ds) (h' : r'.Accounts enabled' ds)
    (hids : (enabled'.map (·.id)).Nodup)
    (henabled : enabled = enabled'.filter fun check => check.id ∈ enabled.map (·.id))
    (hwhole : r.scan.isPartial = false) (hwhole' : r'.scan.isPartial = false) :
    r.Narrows (enabled.map (·.id)) r' := by
  have hfindings := findings_eq_filter h h' hids henabled hwhole hwhole'
  constructor
  case findings => exact hfindings
  case resources => rw [h.resources, h'.resources]
  case resourceTypes => rw [h.resourceTypes, h'.resourceTypes]
  case pass =>
    intro hpass
    obtain ⟨_, hnone⟩ := h'.outcome.1 hpass
    rw [h.outcome, hfindings]
    exact ⟨hwhole, fun f hf => hnone f (List.mem_filter.1 hf).1⟩

/-- Below 2³² findings no count starts again from zero. -/
theorem countsWithin (h : r.Accounts enabled ds) (h' : r'.Accounts enabled' ds)
    (hsub : r.findings.Sublist r'.findings) (hfew : r'.findings.length < 2 ^ 32) :
    r.CountsWithin r' :=
  have htallied := h.tallied (hsub.length_le.trans_lt hfew)
  { counts := htallied.get_le (h'.tallied hfew) hsub
    byCategory := fun _ _ hrow => htallied.row_le (h'.tallied hfew) hsub hrow }

end Report.Accounts

/-- Two audits of one document, of which one enables no check that the other does not: both refuse
it for the same reason, or both report. Where neither was cancelled, the narrower report is the
other one without the findings of the checks that it does not enable, and as long as the other one
has fewer than 2³² findings it counts no more. -/
theorem narrows_of_enabled_subset {b b' : Build} {q q' : AuditRequest} {p p' : Plan}
    (hplan : planOf b q.settings q.overrides = .ok p)
    (hplan' : planOf b' q'.settings q'.overrides = .ok p')
    (hdocument : q.document = q'.document)
    (henabled : (p.enabledIn b).map (·.id) ⊆ (p'.enabledIn b').map (·.id)) :
    (∃ e, audit b q = .error (.document e) ∧ audit b' q' = .error (.document e)) ∨
      ∃ a a', audit b q = .ok a ∧ audit b' q' = .ok a' ∧
        (q.Uncancelled → a.report.scan.isPartial = false) ∧
        (q'.Uncancelled → a'.report.scan.isPartial = false) ∧
        (a.report.scan.isPartial = false → a'.report.scan.isPartial = false →
          a.report.Narrows ((p.enabledIn b).map (·.id)) a'.report ∧
            (a'.report.findings.length < 2 ^ 32 → a.report.CountsWithin a'.report)) := by
  obtain ⟨hrefused, hreports⟩ := audit_of_planOf_eq_ok hplan
  obtain ⟨hrefused', hreports'⟩ := audit_of_planOf_eq_ok hplan'
  cases hparse : Configuration.parse q.document with
  | error e => exact .inl ⟨e, hrefused e hparse, hrefused' e (hdocument ▸ hparse)⟩
  | ok c =>
      obtain ⟨a, ha, rfl⟩ := hreports c hparse
      obtain ⟨a', ha', rfl⟩ := hreports' c (hdocument ▸ hparse)
      refine .inr ⟨a, a', ha, ha', isPartial_of_uncancelled ha, isPartial_of_uncancelled ha',
        fun hwhole hwhole' => ?_⟩
      obtain ⟨document, -, hread, haccounts⟩ := accounts_of_audit_eq_ok ha
      obtain ⟨document', -, hread', haccounts'⟩ := accounts_of_audit_eq_ok ha'
      obtain rfl : document = document' := by
        rw [hdocument, hread'] at hread
        exact (Except.ok.inj hread).symm
      have hnarrows := haccounts.narrows haccounts' (a'.plan.nodup_id_enabledIn b')
        (Plan.enabledIn_eq_filter henabled) hwhole hwhole'
      have hsub : a.report.findings.Sublist a'.report.findings :=
        hnarrows.findings ▸ List.filter_sublist
      exact ⟨hnarrows, haccounts.countsWithin haccounts' hsub⟩

/-- An instance and a group, audited with these settings by workers in peace. -/
def instanceAndGroup (settings : String) : AuditRequest where
  settings := settings
  document := Json.compact <| .object [
    ("aws_instance", .object [("web", .object [("subnet_id", .string "private-a")])]),
    ("aws_security_group", .object [("ssh", .null)])]
  overrides := ⟨none, some true⟩
  token := some 1
  cancelled := [2]
  around := .quiet
  startedAt := .epoch

/-- A build with two checks, against all three of which one is switched off. -/
theorem narrows_instanceAndGroup :
    let settings := "[checks.CUSTOM_AWS_2]\nenabled = false"
    ∃ a a', audit ⟨false, true, true⟩ (instanceAndGroup settings) = .ok a ∧
      audit .full (instanceAndGroup "") = .ok a' ∧
      a.report.Narrows ["CUSTOM_AWS_3"] a'.report ∧ a.report.CountsWithin a'.report := by
  intro settings
  have huncancelled (settings : String) : (instanceAndGroup settings).Uncancelled := by
    refine AuditRequest.uncancelled_of_quiet rfl ?_
    rintro t ⟨⟩ hbefore
    exact absurd (List.mem_singleton.1 hbefore) (by decide)
  have hplan : (planOf ⟨false, true, true⟩ settings ⟨none, some true⟩).toOption.map
      (fun p => (p.enabledIn ⟨false, true, true⟩).map (·.id)) = some ["CUSTOM_AWS_3"] := by
    decide +kernel
  have hplan' : (planOf .full "" ⟨none, some true⟩).toOption.map
      (fun p => (p.enabledIn .full).map (·.id)) =
        some ["CUSTOM_AWS_1", "CUSTOM_AWS_2", "CUSTOM_AWS_3"] := by
    decide +kernel
  have hreports : (audit .full (instanceAndGroup "")).toOption.isSome = true := by
    decide +kernel
  have hpairs : (Json.readTree (instanceAndGroup "").document).toOption.map
      (fun document => (occurrences document).length) = some 2 := by
    decide +kernel
  obtain ⟨p, hp, hids⟩ := Option.map_eq_some_iff.1 hplan
  obtain ⟨p', hp', hids'⟩ := Option.map_eq_some_iff.1 hplan'
  have hok : planOf ⟨false, true, true⟩ (instanceAndGroup settings).settings ⟨none, some true⟩ =
    .ok p := toOption_eq_some.1 hp
  have hok' : planOf .full (instanceAndGroup "").settings ⟨none, some true⟩ = .ok p' :=
    toOption_eq_some.1 hp'
  have hsub : (p.enabledIn ⟨false, true, true⟩).map (·.id) ⊆
      (p'.enabledIn .full).map (·.id) := by
    rw [hids, hids']
    decide
  obtain ⟨e, -, hrefused⟩ | ⟨a, a', ha, ha', hwhole, hwhole', hnarrows⟩ :=
    narrows_of_enabled_subset hok hok' rfl hsub
  · rw [hrefused] at hreports
    cases hreports
  · obtain ⟨hnarrowed, hwithin⟩ :=
      hnarrows (hwhole (huncancelled settings)) (hwhole' (huncancelled ""))
    refine ⟨a, a', ha, ha', hids ▸ hnarrowed, hwithin ?_⟩
    obtain ⟨document, hread, hlength⟩ := Option.map_eq_some_iff.1 hpairs
    have hfindings := length_findings_le_of_audit_eq_ok ha' (toOption_eq_some.1 hread)
    rw [hlength] at hfindings
    exact hfindings.trans_lt (by decide)

/-! ## Counts that start again -/

/-- So many instances, all of them without a body. -/
def manyInstances (n : Nat) : Json :=
  .object [(instanceType, .object ((List.range n).map fun i => (toString i, .null)))]

theorem readTree_manyInstances (n : Nat) :
    Json.readTree (manyInstances n).compact = .ok (manyInstances n) := by
  refine Json.readTree_write (.object (List.forall_mem_singleton.2 (.object ?_))) .none
  intro member hmember
  obtain ⟨i, -, rfl⟩ := List.mem_map.1 hmember
  exact .null

theorem exists_parse_manyInstances (n : Nat) :
    ∃ c, Configuration.parse (manyInstances n).compact = .ok c := by
  have hwrapper : instanceType ≠ wrapperKey := by decide
  rw [Configuration.parse, readTree_manyInstances]
  simp [manyInstances, Configuration.ofJson, declarations, documentBlocks, hwrapper, declarationsIn,
    blockEntries, bind, Except.bind, pure, Except.pure, Except.map]

theorem occurrences_manyInstances (n : Nat) :
    occurrences (manyInstances n) =
      (List.range n).map fun i => ⟨instanceType, toString i, .null⟩ := by
  have hwrapper : instanceType ≠ "resource" := by decide
  simp [occurrences, manyInstances, blocksOf, entriesOf, hwrapper]

namespace Finding

variable {n : Nat} {checks : List Check}

theorem verdict_of_mem_due_manyInstances {f : Finding}
    (h : f ∈ due checks (occurrences (manyInstances n))) : f.verdict = .failed := by
  obtain ⟨_, hkey, check, -, -, rfl⟩ := mem_due.1 h
  obtain ⟨d, hd, rfl⟩ := List.mem_map.1 hkey
  by_contra hverdict
  obtain ⟨attributes, hbody, -⟩ := Check.verdict_judge_ne_failed_iff.1 hverdict
  rw [Configuration.body_resourceOf hd] at hbody
  rw [occurrences_manyInstances] at hd
  obtain ⟨i, -, rfl⟩ := List.mem_map.1 hd
  split at hbody <;> cases hbody

theorem length_due_manyInstances (n : Nat) (checks : List Check) :
    (due checks (occurrences (manyInstances n))).length =
      n * checks.countP (·.info.supports instanceType) := by
  let key (i : Nat) : String × String := (instanceType, toString i)
  have hkeys : (occurrences (manyInstances n)).map Declaration.key = (List.range n).map key := by
    rw [occurrences_manyInstances, List.map_map]
    rfl
  have hinjective : Function.Injective key := by
    intro i j h
    have hdigits := congrArg (fun k => Text.decimal k.2.toList) h
    simpa [key, Text.decimal_toDigits] using hdigits
  have hcard : ((List.range n).map key).toFinset.card = n := by
    rw [List.toFinset_card_of_nodup (List.nodup_range.map hinjective), List.length_map,
      List.length_range]
  have hsame : ∀ k ∈ ((List.range n).map key).toFinset,
      checks.countP (fun check => check.info.supports k.1) =
        checks.countP (·.info.supports instanceType) := by
    intro k hk
    obtain ⟨i, -, rfl⟩ := List.mem_map.1 (List.mem_toFinset.1 hk)
    rfl
  rw [length_due, hkeys, Finset.sum_congr rfl hsame, Finset.sum_const, hcard, Nat.nsmul_eq_mul]

end Finding

theorem Report.Accounts.failed_manyInstances {r : Report} {enabled : List Check} {n : Nat}
    (h : r.Accounts enabled (occurrences (manyInstances n))) (hwhole : r.scan.isPartial = false) :
    r.scan.counts.get .failed =
      UInt32.ofNat (n * enabled.countP (·.info.supports instanceType)) := by
  have hfailed : ∀ v ∈ r.findings.map (·.verdict), Verdict.failed = v := by
    rw [List.forall_mem_map, h.whole hwhole]
    intro f hf
    exact (Finding.verdict_of_mem_due_manyInstances (Finding.mem_sort.1 hf)).symm
  rw [h.counts, Tally.get_ofList, List.count_eq_length.2 hfailed, List.length_map, h.whole hwhole,
    (Finding.sort_perm _).length_eq, Finding.length_due_manyInstances]

/-- Many instances, audited with these settings by one worker in peace. -/
def crowd (n : Nat) (settings : String) : AuditRequest where
  settings := settings
  document := (manyInstances n).compact
  overrides := ⟨none, none⟩
  token := none
  cancelled := []
  around := .quiet
  startedAt := .epoch

theorem uncancelled_crowd (n : Nat) (settings : String) : (crowd n settings).Uncancelled :=
  AuditRequest.uncancelled_of_quiet rfl fun _ h => by cases h

theorem exists_audit_crowd (n : Nat) {settings : String} {p : Plan}
    (hplan : planOf .full settings ⟨none, none⟩ = .ok p) :
    ∃ a, audit .full (crowd n settings) = .ok a ∧ a.report.scan.counts.get .failed =
      UInt32.ofNat (n * (p.enabledIn .full).countP (·.info.supports instanceType)) := by
  obtain ⟨c, hc⟩ := exists_parse_manyInstances n
  obtain ⟨a, ha, rfl⟩ := (audit_of_planOf_eq_ok (q := crowd n settings) hplan).2 c hc
  obtain ⟨document, -, hread, haccounts⟩ := accounts_of_audit_eq_ok ha
  obtain rfl : document = manyInstances n :=
    Except.ok.inj (hread.symm.trans (readTree_manyInstances n))
  exact ⟨a, ha, haccounts.failed_manyInstances
    (isPartial_of_uncancelled ha (uncancelled_crowd n settings))⟩

/-- Of 2³¹ instances one check fails 2³¹ times, but two checks fail 2³² times, which counts as
none. -/
theorem not_countsWithin_crowd :
    let q := crowd (2 ^ 31) "[checks.CUSTOM_AWS_2]\nenabled = false"
    let q' := crowd (2 ^ 31) ""
    ∃ p p' a a', planOf .full q.settings q.overrides = .ok p ∧
      planOf .full q'.settings q'.overrides = .ok p' ∧ q.document = q'.document ∧
      (p.enabledIn .full).map (·.id) ⊆ (p'.enabledIn .full).map (·.id) ∧
      q.Uncancelled ∧ q'.Uncancelled ∧ audit .full q = .ok a ∧ audit .full q' = .ok a' ∧
      ¬ a.report.CountsWithin a'.report := by
  have hplan : (planOf .full "[checks.CUSTOM_AWS_2]\nenabled = false" ⟨none, none⟩).toOption.map
      (fun p => ((p.enabledIn .full).map (·.id),
        (p.enabledIn .full).countP (·.info.supports instanceType))) =
      some (["CUSTOM_AWS_1", "CUSTOM_AWS_3"], 1) := by
    decide +kernel
  have hplan' : (planOf .full "" ⟨none, none⟩).toOption.map
      (fun p => ((p.enabledIn .full).map (·.id),
        (p.enabledIn .full).countP (·.info.supports instanceType))) =
      some (["CUSTOM_AWS_1", "CUSTOM_AWS_2", "CUSTOM_AWS_3"], 2) := by
    decide +kernel
  obtain ⟨p, hp, hchecks⟩ := Option.map_eq_some_iff.1 hplan
  obtain ⟨p', hp', hchecks'⟩ := Option.map_eq_some_iff.1 hplan'
  obtain ⟨hids, hcount⟩ := Prod.mk.inj hchecks
  obtain ⟨hids', hcount'⟩ := Prod.mk.inj hchecks'
  obtain ⟨a, ha, hfailed⟩ := exists_audit_crowd (2 ^ 31) (toOption_eq_some.1 hp)
  obtain ⟨a', ha', hfailed'⟩ := exists_audit_crowd (2 ^ 31) (toOption_eq_some.1 hp')
  refine ⟨p, p', a, a', toOption_eq_some.1 hp, toOption_eq_some.1 hp', rfl, ?_,
    uncancelled_crowd _ _, uncancelled_crowd _ _, ha, ha', fun hwithin => ?_⟩
  · rw [hids, hids']
    decide
  · have hle := hwithin.counts .failed
    rw [hfailed, hfailed', hcount, hcount'] at hle
    revert hle
    decide

end ResourceAudit
