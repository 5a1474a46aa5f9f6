import ResourceAudit.Proofs.Check.Descent
import ResourceAudit.Proofs.Evaluation.Findings
import ResourceAudit.Proofs.Json.Scalars
import ResourceAudit.Proofs.Text.Blank

/-!
# What the built-in checks decide

Each built-in check looks at one attribute and passes only values of a certain form
(`Builtin.checks_failClosed`).
-/

namespace ResourceAudit

section

variable {passing : Json → Prop} {faulty : Fault → Json → Prop} {value? value?' : Option Json}
  {answer answer' : Answer}

/-! ## Answers to one value -/

/-- The answer to a value, if there is one: a passing value passes, a faulty one is a fault, and
all else fails. -/
inductive Answer.Settles (passing : Json → Prop) (faulty : Fault → Json → Prop) :
    Option Json → Answer → Prop
  | absent : Settles passing faulty none (.verdict .failed)
  | passes {value : Json} (h : passing value) (hfaulty : ∀ f, ¬ faulty f value) :
      Settles passing faulty (some value) (.verdict .passed)
  | faults {value : Json} {fault : Fault} (h : ¬ passing value)
      (hfaulty : ∀ f, faulty f value ↔ f = fault) :
      Settles passing faulty (some value) (.fault fault)
  | fails {value : Json} (h : ¬ passing value) (hfaulty : ∀ f, ¬ faulty f value) :
      Settles passing faulty (some value) (.verdict .failed)

namespace Answer.Settles

theorem passed_iff (h : Settles passing faulty value? answer) :
    answer = .verdict .passed ↔ ∃ value, value? = some value ∧ passing value := by
  cases h with
  | absent => simp
  | passes h | faults h | fails h => simp [h]

theorem fault_iff (h : Settles passing faulty value? answer) (f : Fault) :
    answer = .fault f ↔ ∃ value, value? = some value ∧ faulty f value := by
  cases h with
  | absent => simp
  | passes _ hfaulty | fails _ hfaulty => simp [hfaulty]
  | faults _ hfaulty => simp [hfaulty, eq_comm]

theorem failed_iff (h : Settles passing faulty value? answer) :
    answer = .verdict .failed ↔
      ∀ value, value? = some value → ¬ passing value ∧ ∀ f, ¬ faulty f value := by
  cases h with
  | absent => simp
  | passes h => simp [h]
  | faults _ hfaulty => simp [hfaulty]
  | fails h hfaulty => simp [h, hfaulty]

theorem ne_skipped (h : Settles passing faulty value? answer) : answer ≠ .verdict .skipped := by
  cases h <;> nofun

theorem ne_breaksOff (h : Settles passing faulty value? answer) (message : Option String) :
    answer ≠ .breaksOff message := by
  cases h <;> nofun

/-- Values that pass alike and are faulty alike have the same answer. -/
theorem congr (h : Settles passing faulty value? answer)
    (h' : Settles passing faulty value?' answer')
    (hpassing : (∃ value, value? = some value ∧ passing value) ↔
      ∃ value, value?' = some value ∧ passing value)
    (hfaulty : ∀ f, (∃ value, value? = some value ∧ faulty f value) ↔
      ∃ value, value?' = some value ∧ faulty f value) : answer = answer' := by
  by_cases hpasses : ∃ value, value? = some value ∧ passing value
  · rw [h.passed_iff.2 hpasses, h'.passed_iff.2 (hpassing.1 hpasses)]
  by_cases hfaults : ∃ f value, value? = some value ∧ faulty f value
  · obtain ⟨f, hf⟩ := hfaults
    rw [(h.fault_iff f).2 hf, (h'.fault_iff f).2 ((hfaulty f).1 hf)]
  · have hfails := h.failed_iff.2 fun value hvalue =>
      ⟨fun hpass => hpasses ⟨value, hvalue, hpass⟩, fun f hf => hfaults ⟨f, value, hvalue, hf⟩⟩
    have hfails' := h'.failed_iff.2 fun value hvalue =>
      ⟨fun hpass => hpasses (hpassing.2 ⟨value, hvalue, hpass⟩),
        fun f hf => hfaults ⟨f, (hfaulty f).2 ⟨value, hvalue, hf⟩⟩⟩
    rw [hfails, hfails']

end Answer.Settles

/-! ## Checks of one attribute -/

/-- A check that looks at one attribute of a resource and at nothing else. A passing value passes
the resource, a faulty one is answered by its fault, and all else fails, no attribute included. -/
structure Check.FailsClosed (check : Check) (key : String) (passing : Json → Prop)
    (faulty : Fault → Json → Prop) : Prop where
  passed_iff : ∀ r, check.predicate r = .verdict .passed ↔
    ∃ value, r.attribute? key = some value ∧ passing value
  fault_iff : ∀ r f, check.predicate r = .fault f ↔
    ∃ value, r.attribute? key = some value ∧ faulty f value
  failed_iff : ∀ r, check.predicate r = .verdict .failed ↔
    ∀ value, r.attribute? key = some value → ¬ passing value ∧ ∀ f, ¬ faulty f value
  not_skipped : ∀ r, check.predicate r ≠ .verdict .skipped
  not_breaksOff : ∀ r message, check.predicate r ≠ .breaksOff message
  alike : ∀ r r' : Resource, r.attribute? key = r'.attribute? key →
    check.predicate r = check.predicate r'

namespace Check.FailsClosed

variable {check : Check} {key : String}

theorem of_settles
    (h : ∀ r, Answer.Settles passing faulty (r.attribute? key) (check.predicate r)) :
    check.FailsClosed key passing faulty where
  passed_iff r := (h r).passed_iff
  fault_iff r := (h r).fault_iff
  failed_iff r := (h r).failed_iff
  not_skipped r := (h r).ne_skipped
  not_breaksOff r := (h r).ne_breaksOff
  alike r r' heq := (h r).congr (h r') (by rw [heq]) fun _ => by rw [heq]

theorem ne_passed_of_malformed (h : check.FailsClosed key passing faulty) {r : Resource}
    {reason : String} (hr : r.body = .malformed reason) :
    check.predicate r ≠ .verdict .passed := by
  have hnone : r.attribute? key = none := by
    rw [Resource.attribute?, Resource.attributes, hr]
    rfl
  rw [Ne, h.passed_iff, hnone]
  exact nofun

end Check.FailsClosed

end

/-! ## The built-in checks -/

namespace Builtin

theorem settles_instanceProfile (r : Resource) :
    Answer.Settles (fun value => ∃ leaf, value.HasLeaf leaf ∧ leaf.Substantial) (fun _ _ => False)
      (r.attribute? "iam_instance_profile") (instanceProfile.predicate r) := by
  rw [instanceProfile, Check.pure]
  dsimp only
  cases r.attribute? "iam_instance_profile" with
  | none => exact .absent
  | some value =>
      dsimp only
      simp only [← Json.isVoid_eq_false_iff]
      cases hvoid : value.isVoid with
      | false => exact .passes hvoid nofun
      | true => exact .fails (by simp [hvoid]) nofun

theorem occursIn_iff {needle s : List Char} : occursIn needle s = true ↔ needle <:+: s := by
  induction s with
  | nil => rw [occursIn, List.isEmpty_iff, List.infix_nil]
  | cons c rest ih =>
      rw [occursIn, Bool.or_eq_true, List.isPrefixOf_iff_prefix, ih, List.infix_cons_iff]

/-- The text of a null, a truth value or a number never has the mark of a private subnet. -/
theorem not_occursIn_compact {j : Json} (h : j.kind ∈ [.null, .boolean, .number]) :
    occursIn privateMarker.toList j.compact.toList = false := by
  rw [Bool.eq_false_iff, Ne, occursIn_iff, Json.compact, String.toList_ofList]
  intro hoccurs
  have hmark : 'p' ∈ privateMarker.toList := by decide
  exact Json.p_notMem_write h .none 0 (hoccurs.subset hmark)

theorem occursIn_display_iff {j : Json} (h : j.kind ∉ [.list, .object]) :
    occursIn privateMarker.toList (Normalized.scalar j).display.toList = true ↔
      ∃ s, j = .string s ∧ "private".toList <:+: s.toList := by
  cases j with
  | string s => simp [Normalized.display, occursIn_iff, privateMarker]
  | null | bool | number =>
      change occursIn privateMarker.toList (Json.compact _).toList = true ↔ _
      rw [not_occursIn_compact (by simp [Json.kind])]
      simp
  | list | object => exact absurd h (by simp [Json.kind])

theorem settles_privateSubnet (r : Resource) :
    Answer.Settles (fun value => ∃ s, value.LeadsTo (.string s) ∧ "private".toList <:+: s.toList)
      (fun f value => f = .attributeShape "subnet_id" "expected a subnet id string" ∧
        ∃ members, value.LeadsTo (.object members))
      (r.attribute? "subnet_id") (privateSubnet.predicate r) := by
  rw [privateSubnet, Check.pure]
  dsimp only [Resource.normalized]
  cases r.attribute? "subnet_id" with
  | none => exact .absent
  | some value =>
      simp only [Json.leadsTo_iff]
      rw [Normalized.ofRaw]
      cases hend : Normalized.ofJson value with
      | absent => exact .fails (by simp [hend]) (by simp [hend])
      | scalar leaf =>
          have hmarked := @occursIn_display_iff leaf
          cases leaf with
          | list items => exact absurd rfl (Json.leadsTo_iff.2 hend).kind_ne
          | object members => exact .faults (by simp [hend]) (by simp [hend])
          | null | bool | number | string =>
              specialize hmarked (by simp [Json.kind])
              dsimp only
              split
              · rename_i hmark
                obtain ⟨s, hs, hoccurs⟩ := hmarked.1 hmark
                exact .passes ⟨s, hend.trans (congrArg _ hs), hoccurs⟩ (by simp [hend])
              · rename_i hmark
                refine .fails ?_ (by simp [hend])
                rintro ⟨s, hs, hoccurs⟩
                rw [hend] at hs
                exact hmark (hmarked.2 ⟨s, Normalized.scalar.inj hs, hoccurs⟩)

theorem settles_groupDescription (r : Resource) :
    Answer.Settles
      (fun value => ∃ s written, value.LeadsTo (.string s) ∧
        Text.Trims s.toList written.toList ∧ written ≠ "" ∧ written ∉ placeholderDescriptions)
      (fun _ _ => False) (r.attribute? "description") (groupDescription.predicate r) := by
  rw [groupDescription, Check.pure]
  dsimp only [Resource.normalized]
  cases r.attribute? "description" with
  | none => exact .absent
  | some value =>
      simp only [Json.leadsTo_iff]
      rw [Normalized.ofRaw]
      cases hend : Normalized.ofJson value with
      | absent => exact .fails (by simp [hend]) (by simp)
      | scalar leaf =>
          cases leaf with
          | null | bool | number | list | object => exact .fails (by simp [hend]) (by simp)
          | string s =>
              dsimp only [Normalized.string?]
              have htrims : Text.Trims s.toList (String.ofList (Text.trim s.toList)).toList := by
                rw [String.toList_ofList]
                exact Text.trims_trim _
              generalize String.ofList (Text.trim s.toList) = written at htrims
              split
              · rename_i hbad
                refine .fails ?_ nofun
                rintro ⟨s', other, hs', hother, hgood⟩
                obtain rfl : s' = s := by simpa [hend] using hs'.symm
                obtain rfl : other = written :=
                  String.toList_inj.1 (hother.trim_eq.symm.trans htrims.trim_eq)
                simp [hgood] at hbad
              · rename_i hgood
                exact .passes ⟨s, written, hend, htrims, by simpa using hgood⟩ nofun

/-- Each built-in check passes what its attribute has to say and nothing else; none passes a
malformed resource. -/
theorem checks_failClosed :
    (instanceProfile.id = "CUSTOM_AWS_1" ∧
      instanceProfile.FailsClosed "iam_instance_profile"
        (fun value => ∃ leaf, value.HasLeaf leaf ∧ leaf.Substantial)
        fun _ _ => False) ∧
    (privateSubnet.id = "CUSTOM_AWS_2" ∧
      privateSubnet.FailsClosed "subnet_id"
        (fun value => ∃ s, value.LeadsTo (.string s) ∧ "private".toList <:+: s.toList)
        fun f value => f = .attributeShape "subnet_id" "expected a subnet id string" ∧
          ∃ members, value.LeadsTo (.object members)) ∧
    (groupDescription.id = "CUSTOM_AWS_3" ∧
      groupDescription.FailsClosed "description"
        (fun value => ∃ s written, value.LeadsTo (.string s) ∧
          Text.Trims s.toList written.toList ∧ written ≠ "" ∧ written ∉ placeholderDescriptions)
        fun _ _ => False) ∧
    ∀ check ∈ checks, ∀ (r : Resource) (reason : String), r.body = .malformed reason →
      check.predicate r ≠ .verdict .passed ∧ (check.judge r).verdict = .failed := by
  have hfirst := Check.FailsClosed.of_settles settles_instanceProfile
  have hsecond := Check.FailsClosed.of_settles settles_privateSubnet
  have hthird := Check.FailsClosed.of_settles settles_groupDescription
  refine ⟨⟨rfl, hfirst⟩, ⟨rfl, hsecond⟩, ⟨rfl, hthird⟩, fun check hcheck r reason hr => ⟨?_, ?_⟩⟩
  · simp only [checks, List.mem_cons, List.not_mem_nil, or_false] at hcheck
    rcases hcheck with rfl | rfl | rfl
    · exact hfirst.ne_passed_of_malformed hr
    · exact hsecond.ne_passed_of_malformed hr
    · exact hthird.ne_passed_of_malformed hr
  · exact (Check.judge_of_error (Check.outcome_of_malformed hr)).1

/-- Behind an empty list the subnet is not looked for. -/
example : privateSubnet.predicate ⟨"aws_instance", "web", .attributes
    (.ofList [("subnet_id", .list [.list [], .string "subnet-private"])])⟩ =
      .verdict .failed := by decide

end Builtin

end ResourceAudit
