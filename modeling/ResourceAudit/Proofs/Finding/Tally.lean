import ResourceAudit.Finding
import ResourceAudit.Proofs.Dictionary
import Mathlib.Algebra.BigOperators.Group.Finset.Basic
import Mathlib.Algebra.Ring.Nat
import Mathlib.Data.List.Induction

/-!
# What tallies count

The counts of a summary and its rows by category come from one pass over the findings. Below 2³²
findings no word overflows: every count is a number of findings, a category has a row exactly if
it occurs, and the rows add up to the counts (`Finding.tallied`).
-/

namespace ResourceAudit

/-! ## Counts by verdict -/

namespace Tally

def get (t : Tally) : Verdict → UInt32
  | .passed => t.passed
  | .failed => t.failed
  | .skipped => t.skipped

theorem get_zero (v : Verdict) : zero.get v = 0 := by
  cases v <;> rfl

theorem get_record (t : Tally) (v w : Verdict) :
    (t.record v).get w = if v = w then t.get w + 1 else t.get w := by
  cases v <;> cases w <;> rfl

theorem ofList_snoc (vs : List Verdict) (v : Verdict) :
    ofList (vs ++ [v]) = (ofList vs).record v := by
  simp [ofList, List.foldl_append]

/-- The verdicts that a tally counts. -/
def sum (t : Tally) : Nat := t.passed.toNat + t.failed.toNat + t.skipped.toNat

theorem toNat_get_le_sum (t : Tally) (v : Verdict) : (t.get v).toNat ≤ t.sum := by
  cases v <;> simp only [get, sum] <;> omega

theorem get_foldl_record (t : Tally) (vs : List Verdict) (v : Verdict) :
    (vs.foldl record t).get v = t.get v + UInt32.ofNat (vs.count v) := by
  induction vs using List.reverseRecOn with
  | nil => simp
  | append_singleton vs w ih =>
      rw [List.foldl_append, List.foldl_cons, List.foldl_nil, get_record, ih, List.count_append,
        List.count_singleton]
      by_cases hw : w = v
      · simp [hw, UInt32.add_assoc]
      · simp [hw]

theorem toNat_get_foldl_record {t : Tally} {vs : List Verdict} (h : t.sum + vs.length < 2 ^ 32)
    (v : Verdict) : ((vs.foldl record t).get v).toNat = (t.get v).toNat + vs.count v := by
  have hget : (t.get v).toNat ≤ t.sum := t.toNat_get_le_sum v
  have hcount : vs.count v ≤ vs.length := List.count_le_length
  have hfits : vs.count v < 2 ^ 32 := by omega
  rw [get_foldl_record, UInt32.toNat_add, UInt32.toNat_ofNat_of_lt' hfits,
    Nat.mod_eq_of_lt (by omega)]

theorem sum_count (vs : List Verdict) :
    vs.count .passed + vs.count .failed + vs.count .skipped = vs.length := by
  induction vs with
  | nil => rfl
  | cons v vs ih => cases v <;> simp <;> omega

theorem sum_foldl_record {t : Tally} {vs : List Verdict} (h : t.sum + vs.length < 2 ^ 32) :
    (vs.foldl record t).sum = t.sum + vs.length := by
  have hpassed := toNat_get_foldl_record h .passed
  have hfailed := toNat_get_foldl_record h .failed
  have hskipped := toNat_get_foldl_record h .skipped
  have hcount := sum_count vs
  simp only [get] at hpassed hfailed hskipped
  simp only [sum]
  omega

/-- Where the sum fits a word, the total is the sum. -/
theorem toNat_total {t : Tally} (h : t.sum < 2 ^ 32) : t.total.toNat = t.sum := by
  rw [sum] at h
  rw [total, sum, UInt32.toNat_add, UInt32.toNat_add, Nat.mod_add_mod, Nat.mod_eq_of_lt h]

theorem get_ofList (vs : List Verdict) (v : Verdict) :
    (ofList vs).get v = UInt32.ofNat (vs.count v) := by
  rw [ofList, get_foldl_record, get_zero, UInt32.zero_add]

theorem toNat_get_ofList {vs : List Verdict} (h : vs.length < 2 ^ 32) (v : Verdict) :
    ((ofList vs).get v).toNat = vs.count v := by
  rw [get_ofList]
  exact UInt32.toNat_ofNat_of_lt' (Nat.lt_of_le_of_lt List.count_le_length h)

theorem toNat_total_ofList {vs : List Verdict} (h : vs.length < 2 ^ 32) :
    (ofList vs).total.toNat = vs.length := by
  have hzero : zero.sum = 0 := rfl
  have hsum : (ofList vs).sum = vs.length := by
    rw [ofList, sum_foldl_record (by omega), hzero, Nat.zero_add]
  rw [toNat_total (by omega), hsum]

end Tally

/-! ## Rows by category -/

/-- The verdicts of the findings under a tag. -/
def Finding.verdictsUnder (fs : List Finding) (tag : String) : List Verdict :=
  (fs.filter (·.category.tag = tag)).map (·.verdict)

namespace CategoryTallies

theorem get?_record (ts : CategoryTallies) (f : Finding) (tag : String) :
    (ts.record f).get? tag =
      if f.category.tag = tag then some (((ts.get? tag).getD .zero).record f.verdict)
      else ts.get? tag := by
  rw [record, Dictionary.alter, Dictionary.get?_insert]
  by_cases htag : f.category.tag = tag
  · rw [if_pos htag, if_pos htag, htag]
  · rw [if_neg htag, if_neg htag]

/-- A row for every tag that occurs, with the counts of the findings under it. -/
theorem get?_foldl_record (fs : List Finding) (tag : String) :
    (fs.foldl record .empty).get? tag =
      if Finding.verdictsUnder fs tag = [] then none
      else some (.ofList (Finding.verdictsUnder fs tag)) := by
  induction fs using List.reverseRecOn with
  | nil => rfl
  | append_singleton fs f ih =>
      rw [List.foldl_append, List.foldl_cons, List.foldl_nil, get?_record, ih]
      -- The finding lengthens the row of its own tag and leaves the others alone.
      by_cases htag : f.category.tag = tag
      · have hverdicts : Finding.verdictsUnder (fs ++ [f]) tag =
            Finding.verdictsUnder fs tag ++ [f.verdict] := by
          simp [Finding.verdictsUnder, List.filter_append, htag]
        rw [if_pos htag, hverdicts, Tally.ofList_snoc, if_neg (List.concat_ne_nil _ _)]
        by_cases hnil : Finding.verdictsUnder fs tag = []
        · rw [if_pos hnil, hnil]
          rfl
        · rw [if_neg hnil]
          rfl
      · have hverdicts : Finding.verdictsUnder (fs ++ [f]) tag =
            Finding.verdictsUnder fs tag := by
          simp [Finding.verdictsUnder, List.filter_append, htag]
        rw [if_neg htag, hverdicts]

theorem get?_foldl_record_eq_some {fs : List Finding} {tag : String} {row : Tally}
    (h : (fs.foldl record .empty).get? tag = some row) :
    row = .ofList (Finding.verdictsUnder fs tag) := by
  rw [get?_foldl_record] at h
  split at h
  · cases h
  · exact (Option.some.inj h).symm

end CategoryTallies

/-! ## Findings tallied -/

namespace Finding

variable {fs : List Finding}

theorem length_verdictsUnder_le (fs : List Finding) (tag : String) :
    (verdictsUnder fs tag).length ≤ fs.length := by
  rw [verdictsUnder, List.length_map]
  exact List.length_filter_le _ _

theorem count_verdictsUnder (fs : List Finding) (tag : String) (v : Verdict) :
    (verdictsUnder fs tag).count v = fs.countP fun f => f.category.tag = tag ∧ f.verdict = v := by
  rw [verdictsUnder, List.count_eq_countP, List.countP_map, List.countP_filter]
  congr 1
  funext f
  rw [Bool.eq_iff_iff]
  simp [and_comm]

/-- Verdicts under different tags are different findings, so nothing is counted twice and, where no
tag is left out, nothing is missed. -/
theorem sum_count_verdictsUnder {tags : List String} (hnodup : tags.Nodup)
    (hall : ∀ f ∈ fs, f.category.tag ∈ tags) (v : Verdict) :
    (tags.map fun tag => (verdictsUnder fs tag).count v).sum = fs.countP (·.verdict = v) := by
  have hcount (tag : String) : (verdictsUnder fs tag).count v =
      (((fs.filter (·.verdict = v)).map (·.category.tag) : List String) : Multiset String).count
        tag := by
    rw [count_verdictsUnder, Multiset.coe_count, List.count_eq_countP, List.countP_map,
      List.countP_filter]
    congr 1
    funext f
    rw [Bool.eq_iff_iff]
    simp
  -- Each of these findings is under one of the tags, so its tag is counted there, and only there.
  have hmem : ∀ tag ∈ (((fs.filter (·.verdict = v)).map (·.category.tag) : List String) :
      Multiset String), tag ∈ tags.toFinset := by
    intro tag htag
    obtain ⟨f, hf, rfl⟩ := List.mem_map.1 (Multiset.mem_coe.1 htag)
    exact List.mem_toFinset.2 (hall f (List.mem_filter.1 hf).1)
  simp only [hcount]
  rw [← List.sum_toFinset _ hnodup, Multiset.sum_count_eq_card hmem, Multiset.coe_card,
    List.length_map, List.countP_eq_length_filter]

/-- Counts and rows that say exactly how many findings there are, and of which kind. -/
structure Tallied (fs : List Finding) (tally : Tally) (rows : CategoryTallies) : Prop where
  counts : ∀ v, (tally.get v).toNat = fs.countP (·.verdict = v)
  total : tally.total.toNat = fs.length
  row : ∀ tag, (rows.get? tag).isSome = true ↔ ∃ f ∈ fs, f.category.tag = tag
  rowCounts : ∀ tag row, rows.get? tag = some row →
    ∀ v, (row.get v).toNat = fs.countP fun f => f.category.tag = tag ∧ f.verdict = v
  rowSums : ∀ v, (rows.entries.map fun e => (e.2.get v).toNat).sum = (tally.get v).toNat

theorem toNat_get_row (h : fs.length < 2 ^ 32) {tag : String} {row : Tally}
    (hrow : (fs.foldl CategoryTallies.record .empty).get? tag = some row) (v : Verdict) :
    (row.get v).toNat = (verdictsUnder fs tag).count v := by
  rw [CategoryTallies.get?_foldl_record_eq_some hrow]
  exact Tally.toNat_get_ofList (Nat.lt_of_le_of_lt (length_verdictsUnder_le fs tag) h) v

theorem isSome_get?_foldl_record_iff {tag : String} :
    ((fs.foldl CategoryTallies.record .empty).get? tag).isSome = true ↔
      ∃ f ∈ fs, f.category.tag = tag := by
  have hempty : verdictsUnder fs tag = [] ↔ ¬ ∃ f ∈ fs, f.category.tag = tag := by
    simp [verdictsUnder]
  rw [CategoryTallies.get?_foldl_record]
  split
  · rename_i hnil
    exact iff_of_false (by simp) (hempty.1 hnil)
  · rename_i hne
    exact iff_of_true rfl (not_not.1 (hempty.not.1 hne))

theorem toNat_get_counts (h : fs.length < 2 ^ 32) (v : Verdict) :
    ((Tally.ofList (fs.map (·.verdict))).get v).toNat = fs.countP (·.verdict = v) := by
  rw [Tally.toNat_get_ofList (by rwa [List.length_map]), List.count_eq_countP, List.countP_map]
  congr 1

/-- The tallies that a summary keeps of fewer than 2³² findings are exact. -/
theorem tallied (h : fs.length < 2 ^ 32) :
    Tallied fs (.ofList (fs.map (·.verdict))) (fs.foldl CategoryTallies.record .empty) where
  counts := toNat_get_counts h
  total := by rw [Tally.toNat_total_ofList (by rwa [List.length_map]), List.length_map]
  row _ := isSome_get?_foldl_record_iff
  rowCounts tag row hrow v := by rw [toNat_get_row h hrow, count_verdictsUnder]
  rowSums v := by
    have hrows : (fs.foldl CategoryTallies.record .empty).entries.map
          (fun e => (e.2.get v).toNat) =
        ((fs.foldl CategoryTallies.record .empty).entries.map (·.1)).map
          fun tag => (verdictsUnder fs tag).count v := by
      rw [List.map_map]
      apply List.map_congr_left
      intro e he
      exact toNat_get_row h (Dictionary.get?_eq_some_iff.2 he) v
    have hall : ∀ f ∈ fs, f.category.tag ∈
        (fs.foldl CategoryTallies.record .empty).entries.map (·.1) := by
      intro f hf
      have hsome := isSome_get?_foldl_record_iff.2 ⟨f, hf, rfl⟩
      obtain ⟨row, hrow⟩ := Option.isSome_iff_exists.1 hsome
      exact List.mem_map.2 ⟨_, Dictionary.get?_eq_some_iff.1 hrow, rfl⟩
    rw [hrows, sum_count_verdictsUnder (Dictionary.nodup_keys _) hall, toNat_get_counts h]

theorem Tallied.failed_eq_zero_iff {tally : Tally} {rows : CategoryTallies}
    (h : Tallied fs tally rows) : tally.failed = 0 ↔ ∀ f ∈ fs, f.verdict ≠ .failed := by
  have hfailed : tally.failed.toNat = fs.countP (·.verdict = .failed) := h.counts .failed
  rw [← UInt32.toNat_inj, hfailed, UInt32.toNat_zero, List.countP_eq_zero]
  simp

theorem Tallied.get_le {gs : List Finding} {tally tally' : Tally} {rows rows' : CategoryTallies}
    (h : Tallied fs tally rows) (h' : Tallied gs tally' rows') (hsub : fs.Sublist gs)
    (v : Verdict) : tally.get v ≤ tally'.get v := by
  rw [UInt32.le_iff_toNat_le, h.counts, h'.counts]
  exact hsub.countP_le

theorem Tallied.row_le {gs : List Finding} {tally tally' : Tally} {rows rows' : CategoryTallies}
    (h : Tallied fs tally rows) (h' : Tallied gs tally' rows') (hsub : fs.Sublist gs)
    {tag : String} {row : Tally} (hrow : rows.get? tag = some row) :
    ∃ row', rows'.get? tag = some row' ∧ ∀ v, row.get v ≤ row'.get v := by
  obtain ⟨f, hf, htag⟩ := (h.row tag).1 (Option.isSome_iff_exists.2 ⟨row, hrow⟩)
  obtain ⟨row', hrow'⟩ :=
    Option.isSome_iff_exists.1 ((h'.row tag).2 ⟨f, hsub.subset hf, htag⟩)
  refine ⟨row', hrow', fun v => ?_⟩
  rw [UInt32.le_iff_toNat_le, h.rowCounts tag row hrow, h'.rowCounts tag row' hrow']
  exact hsub.countP_le

end Finding

end ResourceAudit
