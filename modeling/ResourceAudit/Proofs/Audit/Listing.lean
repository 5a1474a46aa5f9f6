import ResourceAudit.Proofs.Audit.Account

/-!
# Listings and audits

A listing of the checks and an audit read the same settings (`listing_agrees`): where one is
refused, so is the other, and the checks that the listing flags are those of the registry that the
audit runs. No plan makes a registry that is refused or left open.
-/

namespace ResourceAudit

variable {b : Build} {settings : String} {o : Overrides} {p : Plan} {registry : Registry}
  {listed : List ListedCheck}

/-! ## Registries of plans -/

namespace Plan

theorem isFrozen_of_registry_eq_ok (h : p.registry b = .ok registry) :
    registry.isFrozen = true := by
  obtain ⟨filled, -, rfl⟩ := map_eq_ok.1 h
  rfl

theorem ids_of_registry_eq_ok (h : p.registry b = .ok registry) :
    registry.ids = (p.enabledIn b).map (·.id) := by
  rw [Registry.ids, checks_of_registry_eq_ok h]

theorem toNat_length_enabledIn (p : Plan) (b : Build) :
    (UInt32.ofNat (p.enabledIn b).length).toNat = (p.enabledIn b).length :=
  UInt32.toNat_ofNat_of_lt' ((p.enabledIn_sublist b).length_le.trans_lt (by decide))

end Plan

/-! ## Listings -/

/-- The ids that a listing flags as enabled, in its order. -/
def enabledIds (listed : List ListedCheck) : List String :=
  (listed.filter (·.isEnabled)).map (·.info.id)

def Plan.listing (p : Plan) (b : Build) : List ListedCheck :=
  b.checks.map fun check => ⟨check.info, p.isEnabled check.id⟩

theorem enabledIds_listing (p : Plan) (b : Build) :
    enabledIds (p.listing b) = (p.enabledIn b).map (·.id) := by
  rw [enabledIds, Plan.listing, List.filter_map, List.map_map]
  rfl

theorem listChecks_eq_ok_iff :
    listChecks b settings o = .ok listed ↔
      ∃ p, planOf b settings o = .ok p ∧ p.listing b = listed :=
  map_eq_ok

theorem listChecks_eq_error_iff {e : AuditError} :
    listChecks b settings o = .error e ↔ planOf b settings o = .error e := by
  unfold listChecks
  cases planOf b settings o with
  | error e' => simp [Except.map]
  | ok p => simp [Except.map]

/-! ## Audits -/

theorem audit_of_planOf_eq_error {q : AuditRequest} {e : AuditError}
    (h : planOf b q.settings q.overrides = .error e) : audit b q = .error e := by
  rw [audit, h]
  rfl

theorem checkId_mem_of_mem_due {checks : List Check} {ds : List Declaration} {f : Finding}
    (h : f ∈ Finding.due checks ds) : f.checkId ∈ checks.map (·.id) := by
  obtain ⟨_, _, check, hcheck, _, rfl⟩ := Finding.mem_due.1 h
  exact List.mem_map_of_mem hcheck

/-! ## Agreement -/

/-- An audit runs the checks that a listing flags, in the order of the listing: they make up its
registry, their number is reported, and every finding is of one of them. -/
structure Audit.RunsFlagged (b : Build) (q : AuditRequest) (listed : List ListedCheck)
    (a : Audit) : Prop where
  registry : ∃ registry configuration, a.plan.registry b = .ok registry ∧
    Configuration.parse q.document = .ok configuration ∧
    a.report = ((registry.run configuration ⟨a.plan.parallel, q.token⟩ q.around
      q.cancelled).1.summary.report a.plan registry configuration q.startedAt) ∧
    registry.ids = enabledIds listed
  checks : a.report.scan.checks.toNat = (enabledIds listed).length
  findings : ∀ f ∈ a.report.findings, f.checkId ∈ enabledIds listed

theorem runsFlagged_of_audit_eq_ok {q : AuditRequest} {a : Audit} (h : audit b q = .ok a) :
    a.RunsFlagged b q (a.plan.listing b) := by
  obtain ⟨document, _, _, haccounts⟩ := accounts_of_audit_eq_ok h
  constructor
  case registry =>
    obtain ⟨registry, configuration, _, hregistry, hparse, hreport⟩ := run_of_audit_eq_ok h
    refine ⟨registry, configuration, hregistry, hparse, hreport, ?_⟩
    rw [enabledIds_listing, Plan.ids_of_registry_eq_ok hregistry]
  case checks =>
    rw [haccounts.checks, Plan.toNat_length_enabledIn, enabledIds_listing, List.length_map]
  case findings =>
    intro f hf
    rw [enabledIds_listing]
    exact checkId_mem_of_mem_due (haccounts.findings.subset hf)

/-- Whatever the build, the settings and the overrides: with a listing, it is only the document
that can keep an audit from reporting, and without one, every audit fails alike. -/
theorem listing_agrees (b : Build) (settings : String) (o : Overrides) :
    (∀ e, listChecks b settings o = .error e →
      ∀ q : AuditRequest, q.settings = settings → q.overrides = o → audit b q = .error e) ∧
    (∀ listed, listChecks b settings o = .ok listed →
      ∀ q : AuditRequest, q.settings = settings → q.overrides = o →
        (∃ e, Configuration.parse q.document = .error e ∧ audit b q = .error (.document e)) ∨
          ∃ a, audit b q = .ok a ∧ a.RunsFlagged b q listed) ∧
    ∀ (p : Plan) (b' : Build), ∃ registry, p.registry b' = .ok registry ∧
      registry.isFrozen = true := by
  refine ⟨?refused, ?listed, ?frozen⟩
  case refused =>
    rintro e hlist q rfl rfl
    exact audit_of_planOf_eq_error (listChecks_eq_error_iff.1 hlist)
  case listed =>
    rintro listed hlist q rfl rfl
    obtain ⟨p, hplan, rfl⟩ := listChecks_eq_ok_iff.1 hlist
    obtain ⟨hrefused, hreports⟩ := audit_of_planOf_eq_ok hplan
    cases hparse : Configuration.parse q.document with
    | error e => exact .inl ⟨e, rfl, hrefused e hparse⟩
    | ok c =>
        obtain ⟨a, ha, rfl⟩ := hreports c hparse
        exact .inr ⟨a, ha, runsFlagged_of_audit_eq_ok ha⟩
  case frozen =>
    intro p b'
    obtain ⟨registry, hregistry⟩ := p.exists_registry_eq_ok b'
    exact ⟨registry, hregistry, Plan.isFrozen_of_registry_eq_ok hregistry⟩

/-- A group without a description, audited with these settings in peace. -/
def bareGroup (settings : String) : AuditRequest where
  settings := settings
  document := Json.compact <| .object [("aws_security_group", .object [("ssh", .object [])])]
  overrides := ⟨none, none⟩
  token := none
  cancelled := []
  around := .quiet
  startedAt := .epoch

/-- In a build without the first check, settings that switch off the second, and settings that ask
for the first. -/
theorem listing_agrees_bareGroup :
    let b : Build := ⟨false, true, true⟩
    let off := "[checks.CUSTOM_AWS_2]\nenabled = false"
    let absent := "[checks.CUSTOM_AWS_1]"
    (∃ listed a, listChecks b off ⟨none, none⟩ = .ok listed ∧
      enabledIds listed = ["CUSTOM_AWS_3"] ∧ audit b (bareGroup off) = .ok a ∧
      a.RunsFlagged b (bareGroup off) listed) ∧
    audit b (bareGroup absent) = .error (.settings (.absentCheck "CUSTOM_AWS_1")) := by
  intro b off absent
  have hlist : (listChecks b off ⟨none, none⟩).toOption.map enabledIds =
      some ["CUSTOM_AWS_3"] := by
    decide +kernel
  have habsent : listChecks b absent ⟨none, none⟩ =
      .error (.settings (.absentCheck "CUSTOM_AWS_1")) := by
    decide +kernel
  have hparse : (Configuration.parse (bareGroup off).document).toOption.isSome = true := by
    decide +kernel
  obtain ⟨-, hagrees, -⟩ := listing_agrees b off ⟨none, none⟩
  obtain ⟨hrefused, -, -⟩ := listing_agrees b absent ⟨none, none⟩
  obtain ⟨listed, hlisted, hids⟩ := Option.map_eq_some_iff.1 hlist
  have hok := toOption_eq_some.1 hlisted
  refine ⟨?_, hrefused _ habsent (bareGroup absent) rfl rfl⟩
  obtain ⟨e, he, -⟩ | ⟨a, ha, hruns⟩ := hagrees listed hok (bareGroup off) rfl rfl
  · rw [he] at hparse
    cases hparse
  · exact ⟨listed, a, hok, hids, ha, hruns⟩

end ResourceAudit
