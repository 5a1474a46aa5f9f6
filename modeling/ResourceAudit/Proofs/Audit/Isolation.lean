import ResourceAudit.Proofs.Audit.Account
import ResourceAudit.Proofs.Json.Writer

/-!
# Resources on their own

What a report says about a pair rests on the bodies declared for it (`isolated_of_bodies_eq`): no
other declaration, wherever it stands and whatever is wrong with it, has a say.
-/

namespace ResourceAudit

theorem Report.Accounts.filter_isAbout_findings_eq {r r' : Report} {enabled : List Check}
    {ds ds' : List Declaration} (h : r.Accounts enabled ds) (h' : r'.Accounts enabled ds')
    (hids : (enabled.map (·.id)).Nodup) (hwhole : r.scan.isPartial = false)
    (hwhole' : r'.scan.isPartial = false) {key : String × String}
    (hbodies : bodiesOf ds key = bodiesOf ds' key) :
    r.findings.filter (Finding.isAbout key) = r'.findings.filter (Finding.isAbout key) := by
  have hkeys (ds : List Declaration) :
      ∀ f ∈ Finding.due enabled ds, ∀ g ∈ Finding.due enabled ds,
        Finding.order f g = .eq → f = g :=
    Finding.eq_of_order_eq_eq (Finding.nodup_subject_due hids ds)
  rw [h.whole hwhole, h'.whole hwhole', Finding.filter_sort _ (hkeys ds),
    Finding.filter_sort _ (hkeys ds'), Finding.filter_isAbout_due_eq hbodies]

/-- Two audits with the same settings, of any two documents: where neither was cancelled, the
reports have the same findings about every pair for which the documents declare the same bodies in
the same order, or none. -/
theorem isolated_of_bodies_eq {b : Build} {q q' : AuditRequest} {a a' : Audit}
    (h : audit b q = .ok a) (h' : audit b q' = .ok a') (hsettings : q.settings = q'.settings)
    (hoverrides : q.overrides = q'.overrides) :
    (q.Uncancelled → a.report.scan.isPartial = false) ∧
    (q'.Uncancelled → a'.report.scan.isPartial = false) ∧
    ∃ document document', Json.readTree q.document = .ok document ∧
      Json.readTree q'.document = .ok document' ∧
      (a.report.scan.isPartial = false → a'.report.scan.isPartial = false →
        ∀ key, bodiesOf (occurrences document) key = bodiesOf (occurrences document') key →
          a.report.findings.filter (Finding.isAbout key) =
            a'.report.findings.filter (Finding.isAbout key)) := by
  obtain ⟨document, hplan, hread, haccounts⟩ := accounts_of_audit_eq_ok h
  obtain ⟨document', hplan', hread', haccounts'⟩ := accounts_of_audit_eq_ok h'
  have hsame : a'.plan = a.plan := by
    rw [hsettings, hoverrides, hplan'] at hplan
    exact Except.ok.inj hplan
  rw [hsame] at haccounts'
  refine ⟨isPartial_of_uncancelled h, isPartial_of_uncancelled h', document, document', hread,
    hread', fun hwhole hwhole' key hbodies => ?_⟩
  exact haccounts.filter_isAbout_findings_eq haccounts' (a.plan.nodup_id_enabledIn b) hwhole
    hwhole' hbodies

/-- An audit of a document under the default settings, one resource after the other, in peace. -/
def defaultAudit (document : Json) : AuditRequest where
  settings := ""
  document := document.compact
  overrides := ⟨none, none⟩
  token := none
  cancelled := []
  around := .quiet
  startedAt := .epoch

/-- An instance alone, and inside the wrapper among a malformed one, one declared twice and a type
that no check supports. -/
theorem isolated_web :
    let web : String × Json := ("web", .object [("subnet_id", .string "private-a")])
    let document : Json := .object [("aws_instance", .object [web])]
    let document' : Json := .object [("resource", .object
      [("aws_instance", .list [.object [("db", .null)], .object [("app", .string "x"), web]]),
        ("aws_instance", .object [("db", .null)]), ("aws_vpc", .object [("web", .null)])])]
    ∃ a a', audit .full (defaultAudit document) = .ok a ∧
      audit .full (defaultAudit document') = .ok a' ∧
      a.report.findings.filter (Finding.isAbout ("aws_instance", "web")) =
        a'.report.findings.filter (Finding.isAbout ("aws_instance", "web")) := by
  intro web document document'
  have hlegible : Json.Legible Json.Reader.deepest document := by decide
  have hlegible' : Json.Legible Json.Reader.deepest document' := by decide
  have hread : Json.readTree (defaultAudit document).document = .ok document :=
    Json.readTree_write hlegible .none
  have hread' : Json.readTree (defaultAudit document').document = .ok document' :=
    Json.readTree_write hlegible' .none
  have hreports : (audit .full (defaultAudit document)).toOption.isSome = true := by
    decide +kernel
  have hreports' : (audit .full (defaultAudit document')).toOption.isSome = true := by
    decide +kernel
  obtain ⟨a, ha⟩ := Option.isSome_iff_exists.1 hreports
  obtain ⟨a', ha'⟩ := Option.isSome_iff_exists.1 hreports'
  have hok := toOption_eq_some.1 ha
  have hok' := toOption_eq_some.1 ha'
  have huncancelled (document : Json) : (defaultAudit document).Uncancelled :=
    AuditRequest.uncancelled_of_quiet rfl nofun
  obtain ⟨hwhole, hwhole', _, _, hdocument, hdocument', hsame⟩ :=
    isolated_of_bodies_eq hok hok' rfl rfl
  obtain rfl := Except.ok.inj (hread.symm.trans hdocument)
  obtain rfl := Except.ok.inj (hread'.symm.trans hdocument')
  exact ⟨a, a', hok, hok', hsame (hwhole (huncancelled _)) (hwhole' (huncancelled _)) _ rfl⟩

end ResourceAudit
