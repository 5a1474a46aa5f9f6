import ResourceAudit.Finding
import Mathlib.Data.List.Nodup

/-!
# The order of findings

Findings are ordered by five keys. Sorting does not see in which order findings came, as long as
no two of them agree on all keys and differ otherwise (`Finding.sort_eq_of_perm`), and then it does
not matter whether findings are left out before or after (`Finding.filter_sort`). Findings about
different subjects stand in strictly increasing order (`Finding.pairwise_precedes_sort`).
-/

namespace ResourceAudit

theorem Verdict.rank_injective : Function.Injective Verdict.rank := by
  intro a b h
  cases a <;> cases b <;> first | rfl | cases h

namespace Finding

/-! ## Keys -/

theorem compareNotes_eq_compare (a b : Option String) : compareNotes a b = compare a b := by
  cases a <;> cases b <;> rfl

theorem order_eq_compareLex :
    order = compareLex (compareOn (·.resourceType)) (compareLex (compareOn (·.resourceName))
      (compareLex (compareOn (·.checkId)) (compareLex (compareOn (·.verdict.rank))
        (compareOn (·.note))))) := by
  funext a b
  rw [order, compareNotes_eq_compare]
  rfl

instance : Std.TransCmp order := by
  rw [order_eq_compareLex]
  infer_instance

/-- Findings that the order does not tell apart agree on its keys. -/
theorem order_eq_eq_iff {a b : Finding} :
    order a b = .eq ↔ a.resourceType = b.resourceType ∧ a.resourceName = b.resourceName ∧
      a.checkId = b.checkId ∧ a.verdict = b.verdict ∧ a.note = b.note := by
  rw [order_eq_compareLex]
  simp only [compareLex_eq_eq, compareOn, Std.compare_eq_iff_eq, Verdict.rank_injective.eq_iff]

/-- A finding stands before another by the first key that tells them apart. -/
theorem order_isLE_iff_lex {f g : Finding} : (order f g).isLE = true ↔
    f.resourceType < g.resourceType ∨ f.resourceType = g.resourceType ∧
      (f.resourceName < g.resourceName ∨ f.resourceName = g.resourceName ∧
        (f.checkId < g.checkId ∨ f.checkId = g.checkId ∧
          (f.verdict.rank < g.verdict.rank ∨ f.verdict.rank = g.verdict.rank ∧
            (compareNotes f.note g.note).isLE = true))) := by
  have hlt {a b : String} : compare a b = .lt ↔ a < b := compareOfLessAndEq_eq_lt
  simp only [order, Ordering.isLE_then_iff_or, hlt, Nat.compare_eq_lt, Std.compare_eq_iff_eq]

/-! ## Sorting -/

theorem sort_perm (fs : List Finding) : (sort fs).Perm fs := List.mergeSort_perm fs _

theorem mem_sort {fs : List Finding} {f : Finding} : f ∈ sort fs ↔ f ∈ fs := (sort_perm fs).mem_iff

theorem order_total (a b : Finding) : ((order a b).isLE || (order b a).isLE) = true := by
  have hswap : order b a = (order a b).swap := Std.OrientedCmp.eq_swap
  rw [hswap]
  cases order a b <;> rfl

theorem pairwise_sort (fs : List Finding) :
    (sort fs).Pairwise fun a b => (order a b).isLE = true :=
  List.pairwise_mergeSort (fun _ _ _ => Std.TransCmp.isLE_trans) order_total fs

theorem eq_of_perm_of_pairwise {fs gs : List Finding} (h : fs.Perm gs)
    (hfs : fs.Pairwise fun a b => (order a b).isLE = true)
    (hgs : gs.Pairwise fun a b => (order a b).isLE = true)
    (hkeys : ∀ a ∈ fs, ∀ b ∈ fs, order a b = .eq → a = b) : fs = gs := by
  refine h.eq_of_pairwise ?_ hfs hgs
  intro a b ha hb hab hba
  exact hkeys a ha b (h.mem_iff.2 hb) (Std.OrientedCmp.isLE_antisymm hab hba)

/-- Where keys tell findings apart, sorting forgets in which order they came. -/
theorem sort_eq_of_perm {fs gs : List Finding} (h : fs.Perm gs)
    (hkeys : ∀ a ∈ fs, ∀ b ∈ fs, order a b = .eq → a = b) : sort fs = sort gs := by
  have hperm : (sort fs).Perm (sort gs) := (sort_perm fs).trans (h.trans (sort_perm gs).symm)
  refine eq_of_perm_of_pairwise hperm (pairwise_sort fs) (pairwise_sort gs) ?_
  intro a ha b hb
  exact hkeys a (mem_sort.1 ha) b (mem_sort.1 hb)

/-- Where keys tell findings apart, some of them can be left out before or after sorting. -/
theorem filter_sort {fs : List Finding} (p : Finding → Bool)
    (hkeys : ∀ a ∈ fs, ∀ b ∈ fs, order a b = .eq → a = b) :
    (sort fs).filter p = sort (fs.filter p) := by
  have hperm : ((sort fs).filter p).Perm (sort (fs.filter p)) :=
    ((sort_perm fs).filter p).trans (sort_perm (fs.filter p)).symm
  refine eq_of_perm_of_pairwise hperm ((pairwise_sort fs).filter p) (pairwise_sort _) ?_
  intro a ha b hb
  exact hkeys a (mem_sort.1 (List.mem_filter.1 ha).1) b (mem_sort.1 (List.mem_filter.1 hb).1)

/-! ## Subjects -/

/-- What a finding is about: a resource and a check. -/
def subject (f : Finding) : (String × String) × String :=
  ((f.resourceType, f.resourceName), f.checkId)

/-- By type, name and check, strictly. -/
def Precedes (f g : Finding) : Prop :=
  f.resourceType < g.resourceType ∨ f.resourceType = g.resourceType ∧
    (f.resourceName < g.resourceName ∨ f.resourceName = g.resourceName ∧ f.checkId < g.checkId)

theorem eq_of_order_eq_eq {fs : List Finding} (h : (fs.map subject).Nodup) :
    ∀ a ∈ fs, ∀ b ∈ fs, order a b = .eq → a = b := by
  intro a ha b hb heq
  obtain ⟨htype, hname, hid, -, -⟩ := order_eq_eq_iff.1 heq
  exact List.inj_on_of_nodup_map h ha hb (Prod.ext (Prod.ext htype hname) hid)

theorem precedes_of_isLE {f g : Finding} (h : (order f g).isLE = true)
    (hne : f.subject ≠ g.subject) : f.Precedes g := by
  rcases order_isLE_iff_lex.1 h with htype | ⟨htype, hname | ⟨hname, hid | ⟨hid, -⟩⟩⟩
  · exact .inl htype
  · exact .inr ⟨htype, .inl hname⟩
  · exact .inr ⟨htype, .inr ⟨hname, hid⟩⟩
  · exact absurd (Prod.ext (Prod.ext htype hname) hid) hne

/-- Findings about different subjects are sorted strictly. -/
theorem pairwise_precedes_sort {fs : List Finding} (h : (fs.map subject).Nodup) :
    (sort fs).Pairwise Precedes := by
  have hnodup : ((sort fs).map subject).Nodup := ((sort_perm fs).map subject).nodup_iff.2 h
  refine (pairwise_sort fs).imp₂ ?_ (List.pairwise_map.1 hnodup)
  exact fun f g hle hne => precedes_of_isLE hle hne

end Finding

namespace Summary

/-- A summary depends on its sorted findings only. -/
theorem ofFindings_eq_of_sort_eq {fs gs : List Finding}
    (h : Finding.sort fs = Finding.sort gs) : ofFindings fs = ofFindings gs := by
  unfold ofFindings
  rw [h]

theorem passed_eq_true_iff (s : Summary) :
    s.passed = true ↔ ∀ f ∈ s.findings, f.verdict ≠ .failed := by
  simp [passed, Finding.isFailed]

end Summary

end ResourceAudit
