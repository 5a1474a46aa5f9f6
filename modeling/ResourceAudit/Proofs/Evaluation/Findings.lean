import ResourceAudit.Check

/-!
# What findings say

What a finding says depends on its own resource and check only (`Finding.Reports`): the verdict of
the predicate, or a failure with the reason why there is none.
-/

namespace ResourceAudit

/-- What a finding of a check on a resource says. -/
structure Finding.Reports (f : Finding) (resource : Resource) (check : Check) : Prop where
  checkId : f.checkId = check.info.id
  checkName : f.checkName = check.info.name
  category : f.category = check.info.categories.head?.getD .generalSecurity
  resourceType : f.resourceType = resource.type
  resourceName : f.resourceName = resource.name
  malformed : ∀ reason, resource.body = .malformed reason →
    f.verdict = .failed ∧ f.note = some ("resource is malformed: " ++ reason)
  verdict : ∀ attributes v, resource.body = .attributes attributes →
    check.predicate resource = .verdict v → f.verdict = v ∧ f.note = none
  fault : ∀ attributes fault, resource.body = .attributes attributes →
    check.predicate resource = .fault fault → f.verdict = .failed ∧ f.note = some fault.message
  breaksOff : ∀ attributes words, resource.body = .attributes attributes →
    check.predicate resource = .breaksOff words → f.verdict = .failed ∧
      f.note = some ("check panicked: " ++ words.getD "non-string panic payload")
  note : f.note.isSome = true ↔
    (∃ reason, resource.body = .malformed reason) ∨ ∀ v, check.predicate resource ≠ .verdict v

namespace Check

variable {check : Check} {resource : Resource}

theorem judge_of_ok {v : Verdict} (h : check.outcome resource = .ok v) :
    (check.judge resource).verdict = v ∧ (check.judge resource).note = none := by
  simp [judge, h]

theorem judge_of_error {f : Fault} (h : check.outcome resource = .error f) :
    (check.judge resource).verdict = .failed ∧
      (check.judge resource).note = some f.message := by
  simp [judge, h]

/-- A malformed resource is a fault, whatever the predicate. -/
theorem outcome_of_malformed {reason : String} (h : resource.body = .malformed reason) :
    check.outcome resource = .error (.malformed reason) := by
  simp [outcome, Resource.defect?, h]

theorem outcome_of_attributes {attributes : Attributes}
    (h : resource.body = .attributes attributes) :
    check.outcome resource = (check.predicate resource).outcome := by
  simp [outcome, Resource.defect?, h]

theorem isSome_note_iff : (check.judge resource).note.isSome = true ↔
    (∃ reason, resource.body = .malformed reason) ∨ ∀ v, check.predicate resource ≠ .verdict v := by
  cases hbody : resource.body with
  | malformed reason =>
      rw [(judge_of_error (outcome_of_malformed hbody)).2]
      simp
  | attributes attributes =>
      have houtcome : check.outcome resource = (check.predicate resource).outcome :=
        outcome_of_attributes hbody
      cases hanswer : check.predicate resource with
      | verdict v =>
          rw [hanswer] at houtcome
          simp [(judge_of_ok houtcome).2]
      | fault f =>
          rw [hanswer] at houtcome
          simp [(judge_of_error houtcome).2]
      | breaksOff words =>
          rw [hanswer] at houtcome
          simp [(judge_of_error houtcome).2]

theorem judge_reports (check : Check) (resource : Resource) :
    (check.judge resource).Reports resource check where
  checkId := rfl
  checkName := rfl
  category := List.headD_eq_head?_getD
  resourceType := rfl
  resourceName := rfl
  malformed _ hbody := judge_of_error (outcome_of_malformed hbody)
  verdict _ _ hbody hanswer := judge_of_ok (by rw [outcome_of_attributes hbody, hanswer]; rfl)
  fault _ _ hbody hanswer := judge_of_error (by rw [outcome_of_attributes hbody, hanswer]; rfl)
  breaksOff _ words hbody hanswer :=
    judge_of_error (f := .brokenOff (words.getD "non-string panic payload"))
      (by rw [outcome_of_attributes hbody, hanswer]; rfl)
  note := isSome_note_iff

/-- Only a verdict on attributes keeps a finding from being a failure. -/
theorem verdict_judge_ne_failed_iff : (check.judge resource).verdict ≠ .failed ↔
    ∃ attributes, resource.body = .attributes attributes ∧
      (check.predicate resource = .verdict .passed ∨
        check.predicate resource = .verdict .skipped) := by
  have hreports := judge_reports check resource
  cases hbody : resource.body with
  | malformed reason => simp [(hreports.malformed reason hbody).1]
  | attributes attributes =>
      cases hanswer : check.predicate resource with
      | fault f => simp [(hreports.fault attributes f hbody hanswer).1]
      | breaksOff words => simp [(hreports.breaksOff attributes words hbody hanswer).1]
      | verdict v =>
          rw [(hreports.verdict attributes v hbody hanswer).1]
          cases v <;> simp

end Check

end ResourceAudit
