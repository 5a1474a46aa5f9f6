import ResourceAudit.Proofs.Finding.Tally
import ResourceAudit.Proofs.Finding.Ties

/-!
# What a summary says of its findings

A summary holds the findings that it was made of, in order, and counts them without an overflow
(`Summary.ofFindings_exact`). The counts do not depend on the order in which findings came; the
findings do as far as some of them tie without being the same (`Summary.ofFindings_rearranged`).
-/

namespace ResourceAudit

theorem Category.tag_injective : Function.Injective Category.tag := by
  intro a b h
  cases a <;> cases b <;> first | rfl | exact absurd h (by decide)

/-! ## Recording verdicts -/

namespace Tally

/-- There is no overflow when a verdict is recorded. -/
def HasRoom (t : Tally) (v : Verdict) : Prop := (t.get v).toNat + 1 < 2 ^ 32

/-- Verdicts recorded in turn: each of them finds room, and in the end the counts and the total have
grown by as many as there were. -/
structure Records (start : Tally) (vs : List Verdict) : Prop where
  room : ∀ before v after, vs = before ++ v :: after → (before.foldl record start).HasRoom v
  counts : ∀ v, ((vs.foldl record start).get v).toNat = (start.get v).toNat + vs.count v
  sum : (vs.foldl record start).sum < 2 ^ 32
  total : (vs.foldl record start).total.toNat = start.sum + vs.length

theorem hasRoom_foldl_record {start : Tally} {before : List Verdict}
    (h : start.sum + before.length + 1 < 2 ^ 32) (v : Verdict) :
    (before.foldl record start).HasRoom v := by
  have hsum : (before.foldl record start).sum = start.sum + before.length :=
    sum_foldl_record (by omega)
  have hget := toNat_get_le_sum (before.foldl record start) v
  rw [HasRoom]
  omega

theorem records {start : Tally} {vs : List Verdict} (h : start.sum + vs.length < 2 ^ 32) :
    start.Records vs := by
  have hsum : (vs.foldl record start).sum = start.sum + vs.length := sum_foldl_record h
  constructor
  case room =>
    rintro before v after rfl
    rw [List.length_append, List.length_cons] at h
    exact hasRoom_foldl_record (by omega) v
  case counts => exact toNat_get_foldl_record h
  case sum => rwa [hsum]
  case total => rw [toNat_total (by rwa [hsum]), hsum]

theorem hasRoom_ofList {before : List Verdict} (h : before.length + 1 < 2 ^ 32) (v : Verdict) :
    (ofList before).HasRoom v := by
  have hzero : zero.sum = 0 := rfl
  exact hasRoom_foldl_record (by omega) v

theorem ext_get {t u : Tally} (h : ∀ v, t.get v = u.get v) : t = u := by
  have hpassed := h .passed
  have hfailed := h .failed
  have hskipped := h .skipped
  cases t
  cases u
  simp_all [get]

theorem ofList_eq_of_perm {vs ws : List Verdict} (h : vs.Perm ws) : ofList vs = ofList ws := by
  apply ext_get
  intro v
  rw [get_ofList, get_ofList, h.count_eq]

end Tally

/-! ## Rows of a category -/

namespace CategoryTallies

/-- How many findings with a verdict the row of a tag counts; none if there is no row. -/
def count (rows : CategoryTallies) (tag : String) (v : Verdict) : Nat :=
  (((rows.get? tag).getD .zero).get v).toNat

theorem getD_foldl_record (fs : List Finding) (tag : String) :
    ((fs.foldl record .empty).get? tag).getD .zero = .ofList (Finding.verdictsUnder fs tag) := by
  rw [get?_foldl_record]
  split
  · rename_i hnil
    rw [hnil]
    rfl
  · rfl

theorem foldl_record_eq_of_perm {fs gs : List Finding} (h : fs.Perm gs) :
    fs.foldl record .empty = gs.foldl record .empty := by
  apply Dictionary.ext_get?
  intro tag
  have hverdicts : (Finding.verdictsUnder fs tag).Perm (Finding.verdictsUnder gs tag) :=
    (h.filter _).map _
  have hnil : Finding.verdictsUnder fs tag = [] ↔ Finding.verdictsUnder gs tag = [] := by
    rw [← List.length_eq_zero_iff, hverdicts.length_eq, List.length_eq_zero_iff]
  rw [get?_foldl_record, get?_foldl_record, Tally.ofList_eq_of_perm hverdicts]
  simp only [hnil]

theorem count_foldl_record {fs : List Finding} (h : fs.length < 2 ^ 32) (tag : String)
    (v : Verdict) :
    (fs.foldl record .empty).count tag v = (Finding.verdictsUnder fs tag).count v := by
  have hlength := Finding.length_verdictsUnder_le fs tag
  rw [count, getD_foldl_record, Tally.toNat_get_ofList (by omega)]

end CategoryTallies

namespace Finding

variable {fs : List Finding}

theorem verdictsUnder_append (fs gs : List Finding) (tag : String) :
    verdictsUnder (fs ++ gs) tag = verdictsUnder fs tag ++ verdictsUnder gs tag := by
  simp [verdictsUnder]

theorem length_verdictsUnder (fs : List Finding) (c : Category) :
    (verdictsUnder fs c.tag).length = fs.countP (·.category = c) := by
  rw [verdictsUnder, List.length_map, List.countP_eq_length_filter]
  simp only [Category.tag_injective.eq_iff]

/-- The row of a tag is a tally of the findings of its category. -/
theorem counts_row (h : fs.length < 2 ^ 32) {c : Category} {row : Tally}
    (hrow : (fs.foldl CategoryTallies.record .empty).get? c.tag = some row) :
    (∀ v, (row.get v).toNat = fs.countP fun f => f.category = c ∧ f.verdict = v) ∧
      row.total.toNat = fs.countP (·.category = c) := by
  have hlength := length_verdictsUnder_le fs c.tag
  refine ⟨fun v => ?_, ?_⟩
  · rw [toNat_get_row h hrow, count_verdictsUnder]
    simp only [Category.tag_injective.eq_iff]
  · rw [CategoryTallies.get?_foldl_record_eq_some hrow, Tally.toNat_total_ofList (by omega),
      length_verdictsUnder]

/-- Neither the counts nor the row of its category overflow when a finding is recorded. -/
theorem hasRoom_of_eq_append (h : fs.length < 2 ^ 32) {before after : List Finding} {f : Finding}
    (hsplit : fs = before ++ f :: after) :
    (Tally.ofList (before.map (·.verdict))).HasRoom f.verdict ∧
      (((before.foldl CategoryTallies.record .empty).get? f.category.tag).getD .zero).HasRoom
        f.verdict := by
  have hunder := length_verdictsUnder_le before f.category.tag
  rw [hsplit, List.length_append, List.length_cons] at h
  rw [CategoryTallies.getD_foldl_record]
  constructor
  · exact Tally.hasRoom_ofList (by rw [List.length_map]; omega) _
  · exact Tally.hasRoom_ofList (by omega) _

end Finding

/-! ## Summaries -/

namespace Summary

theorem counts_ofFindings (fs : List Finding) :
    (ofFindings fs).counts = .ofList (fs.map (·.verdict)) :=
  Tally.ofList_eq_of_perm ((Finding.sort_perm fs).map _)

theorem byCategory_ofFindings (fs : List Finding) :
    (ofFindings fs).byCategory = fs.foldl CategoryTallies.record .empty :=
  CategoryTallies.foldl_record_eq_of_perm (Finding.sort_perm fs)

/-- The findings that a summary was made of, in order and those that tie as they came, and exact
counts of them: while they are recorded there is room for each. -/
structure Exact (s : Summary) (fs : List Finding) : Prop where
  findings : s.findings.Perm fs
  sorted : s.findings.Pairwise fun f g => f.sortKey ≤ g.sortKey
  ties : ∀ key, s.findings.filter (·.sortKey = key) = fs.filter (·.sortKey = key)
  room : ∀ before f after, s.findings = before ++ f :: after →
    (Tally.ofList (before.map (·.verdict))).HasRoom f.verdict ∧
      (((before.foldl CategoryTallies.record .empty).get? f.category.tag).getD .zero).HasRoom
        f.verdict
  tallied : Finding.Tallied fs s.counts s.byCategory
  category : ∀ c row, s.byCategory.get? (Category.tag c) = some row →
    (∀ v, (row.get v).toNat = fs.countP fun f => f.category = c ∧ f.verdict = v) ∧
      row.total.toNat = fs.countP (·.category = c)
  passed : s.passed = true ↔ s.counts.failed = 0
  failures : s.counts.failed = 0 ↔ s.failures = []

theorem failures_eq_nil_iff (s : Summary) :
    s.failures = [] ↔ ∀ f ∈ s.findings, f.verdict ≠ .failed := by
  simp [failures, Finding.isFailed]

theorem exact_ofFindings {fs : List Finding} (h : fs.length < 2 ^ 32) :
    (ofFindings fs).Exact fs := by
  have hsort : (Finding.sort fs).length < 2 ^ 32 := by rwa [(Finding.sort_perm fs).length_eq]
  have htallied : Finding.Tallied fs (ofFindings fs).counts (ofFindings fs).byCategory := by
    rw [counts_ofFindings, byCategory_ofFindings]
    exact Finding.tallied h
  have hmem : (∀ f ∈ (ofFindings fs).findings, f.verdict ≠ .failed) ↔
      ∀ f ∈ fs, f.verdict ≠ .failed := by
    simp only [ofFindings, Finding.mem_sort]
  constructor
  case findings => exact Finding.sort_perm fs
  case sorted => exact Finding.pairwise_sortKey_sort fs
  case ties => exact Finding.filter_sortKey_sort fs
  case room => exact fun _ _ _ hsplit => Finding.hasRoom_of_eq_append hsort hsplit
  case tallied => exact htallied
  case category =>
    intro c row hrow
    rw [byCategory_ofFindings] at hrow
    exact Finding.counts_row h hrow
  case passed => rw [passed_eq_true_iff, hmem, htallied.failed_eq_zero_iff]
  case failures => rw [failures_eq_nil_iff, hmem, htallied.failed_eq_zero_iff]

/-- A summary that counts what two others count together. -/
structure Joins (whole s t : Summary) : Prop where
  counts : ∀ v, (whole.counts.get v).toNat = (s.counts.get v).toNat + (t.counts.get v).toNat
  row : ∀ tag, (whole.byCategory.get? tag).isSome = true ↔
    (s.byCategory.get? tag).isSome = true ∨ (t.byCategory.get? tag).isSome = true
  rowCounts : ∀ tag v,
    whole.byCategory.count tag v = s.byCategory.count tag v + t.byCategory.count tag v

theorem joins_ofFindings {fs gs : List Finding} (h : (fs ++ gs).length < 2 ^ 32) :
    (ofFindings (fs ++ gs)).Joins (ofFindings fs) (ofFindings gs) := by
  have hparts : fs.length + gs.length < 2 ^ 32 := by rwa [List.length_append] at h
  have hfs : fs.length < 2 ^ 32 := by omega
  have hgs : gs.length < 2 ^ 32 := by omega
  constructor
  case counts =>
    intro v
    simp only [counts_ofFindings]
    rw [Finding.toNat_get_counts h, Finding.toNat_get_counts hfs, Finding.toNat_get_counts hgs,
      List.countP_append]
  case row =>
    intro tag
    simp only [byCategory_ofFindings, Finding.isSome_get?_foldl_record_iff, List.mem_append,
      or_and_right, exists_or]
  case rowCounts =>
    intro tag v
    simp only [byCategory_ofFindings]
    rw [CategoryTallies.count_foldl_record h, CategoryTallies.count_foldl_record hfs,
      CategoryTallies.count_foldl_record hgs, Finding.verdictsUnder_append, List.count_append]

/-- Below 2³² findings a summary loses none and miscounts none, and the counts of two lists add up.
Nor does recording overflow a tally, whatever it holds, that has room for as many verdicts. -/
theorem ofFindings_exact :
    (∀ fs : List Finding, fs.length < 2 ^ 32 → (ofFindings fs).Exact fs) ∧
    (∀ fs gs : List Finding, (fs ++ gs).length < 2 ^ 32 →
      (ofFindings (fs ++ gs)).Joins (ofFindings fs) (ofFindings gs)) ∧
    ∀ (start : Tally) (vs : List Verdict), start.sum + vs.length < 2 ^ 32 → start.Records vs :=
  ⟨fun _ h => exact_ofFindings h, fun _ _ h => joins_ofFindings h, fun _ _ h => Tally.records h⟩

/-- Findings that tie in all but the name of their check, before and behind a failure, and a tally
with room for one more. -/
theorem ofFindings_exact_namesakes :
    let f (checkName : String) : Finding :=
      ⟨"CUSTOM_AWS_2", checkName, "vm", "web", .passed, .networking, none⟩
    let g : Finding := ⟨"CUSTOM_AWS_1", "é", "vm", "web", .failed, .iam, some "😀"⟩
    let fs : List Finding := [f "b", g, f "a"]
    let start : Tally := ⟨0, 4294967294, 0⟩
    (ofFindings fs).Exact fs ∧ (ofFindings fs).findings = [g, f "b", f "a"] ∧
      (ofFindings (fs ++ [g])).Joins (ofFindings fs) (ofFindings [g]) ∧
      start.Records [.failed] ∧ ([.failed].foldl Tally.record start).failed = 4294967295 := by
  intro f g fs start
  obtain ⟨hexact, hjoins, hrecords⟩ := ofFindings_exact
  have hroom : start.sum + 1 < 2 ^ 32 := by decide
  have hafter : ((f "b").order g).isLE = false := by decide
  have hbefore : (g.order (f "a")).isLE = true := by decide
  have hties : ((f "b").order (f "a")).isLE = true := by decide
  have hsort : Finding.sort fs = [g, f "b", f "a"] := by
    simp [Finding.sort, fs, List.mergeSort, hafter, hbefore, hties]
  exact ⟨hexact fs (by decide), hsort, hjoins fs [g] (by decide), hrecords start [.failed] hroom,
    rfl⟩

/-! ## Findings in another order -/

theorem ofFindings_eq_iff {fs gs : List Finding} :
    ofFindings fs = ofFindings gs ↔ Finding.sort fs = Finding.sort gs :=
  ⟨fun h => congrArg findings h, ofFindings_eq_of_sort_eq⟩

/-- Findings that tie stay in the order in which they came, whatever their checks are called and
whatever these are about. So the order shows in a summary unless findings that tie are the same. It
shows nowhere else in it. -/
theorem ofFindings_rearranged (fs : List Finding) :
    ((∀ gs, gs.Perm fs → ofFindings gs = ofFindings fs) ↔
      ∀ f ∈ fs, ∀ g ∈ fs, f.sortKey = g.sortKey → f = g) ∧
    ∀ gs, gs.Perm fs →
      (ofFindings gs = ofFindings fs ↔
        ∀ key, gs.filter (·.sortKey = key) = fs.filter (·.sortKey = key)) ∧
      (ofFindings gs).findings.Perm (ofFindings fs).findings ∧
      (ofFindings gs).findings.map Finding.sortKey =
        (ofFindings fs).findings.map Finding.sortKey ∧
      (ofFindings gs).counts = (ofFindings fs).counts ∧
      (ofFindings gs).byCategory = (ofFindings fs).byCategory ∧
      (ofFindings gs).isPartial = (ofFindings fs).isPartial := by
  constructor
  · simp only [ofFindings_eq_iff]
    exact Finding.sort_rearranged_iff
  · intro gs hperm
    refine ⟨ofFindings_eq_iff.trans Finding.sort_eq_sort_iff, ?_, ?_, ?_, ?_, rfl⟩
    · exact (Finding.sort_perm gs).trans (hperm.trans (Finding.sort_perm fs).symm)
    · exact Finding.map_sortKey_sort_of_perm hperm
    · rw [counts_ofFindings, counts_ofFindings]
      exact Tally.ofList_eq_of_perm (hperm.map _)
    · rw [byCategory_ofFindings, byCategory_ofFindings]
      exact CategoryTallies.foldl_record_eq_of_perm hperm

/-- Two findings of one check on one resource, under two names, stand as they came. -/
theorem ofFindings_rearranged_namesakes :
    let f (checkName : String) : Finding :=
      ⟨"CUSTOM_AWS_2", checkName, "vm", "web", .passed, .networking, none⟩
    [f "b", f "a"].Perm [f "a", f "b"] ∧
      ofFindings [f "b", f "a"] ≠ ofFindings [f "a", f "b"] ∧
      (ofFindings [f "b", f "a"]).counts = (ofFindings [f "a", f "b"]).counts := by
  intro f
  have hperm : [f "b", f "a"].Perm [f "a", f "b"] := .swap _ _ _
  obtain ⟨-, hrearranged⟩ := ofFindings_rearranged [f "a", f "b"]
  obtain ⟨hiff, -, -, hcounts, -, -⟩ := hrearranged _ hperm
  refine ⟨hperm, fun heq => ?_, hcounts⟩
  have hties := hiff.1 heq (f "a").sortKey
  simp [f, Finding.sortKey] at hties

end Summary

end ResourceAudit
