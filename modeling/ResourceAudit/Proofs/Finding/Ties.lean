import ResourceAudit.Proofs.Finding.Order
import Mathlib.Data.Prod.Lex
import Mathlib.Data.String.Basic
import Mathlib.Order.WithBot

/-!
# Findings that tie

Findings tie if they agree on the key that they are sorted by. Sorting puts keys in order and leaves
findings that tie as they stood (`Finding.filter_sortKey_sort`). So two lists are sorted into the
same one exactly if their findings of each key stand in the same order
(`Finding.sort_eq_sort_iff`).
-/

namespace ResourceAudit

namespace Finding

/-! ## Keys -/

/-- A missing note comes before every note. -/
def noteKey : Option String → WithBot String
  | none => ⊥
  | some note => note

theorem noteKey_injective : Function.Injective noteKey := by
  intro a b h
  cases a with
  | none =>
      cases b with
      | none => rfl
      | some y => exact absurd h.symm WithBot.coe_ne_bot
  | some x =>
      cases b with
      | none => exact absurd h WithBot.coe_ne_bot
      | some y => exact congrArg some (WithBot.coe_inj.1 h)

theorem compareNotes_isLE_iff (a b : Option String) :
    (compareNotes a b).isLE = true ↔ noteKey a ≤ noteKey b := by
  cases a with
  | none => exact iff_of_true (by cases b <;> rfl) bot_le
  | some x =>
      cases b with
      | none => exact iff_of_false (by simp [compareNotes]) (WithBot.not_coe_le_bot x)
      | some y => rw [compareNotes, noteKey, noteKey, WithBot.coe_le_coe, ← compare_le_iff_le,
          Ordering.isLE_iff_ne_gt]

/-- Type, name, check, verdict and note, the former before the latter. -/
abbrev SortKey : Type := String ×ₗ String ×ₗ String ×ₗ Nat ×ₗ WithBot String

/-- What findings are sorted by. -/
def sortKey (f : Finding) : SortKey :=
  toLex (f.resourceType, toLex (f.resourceName, toLex (f.checkId,
    toLex (f.verdict.rank, noteKey f.note))))

theorem order_isLE_iff {f g : Finding} : (order f g).isLE = true ↔ f.sortKey ≤ g.sortKey := by
  simp only [order_isLE_iff_lex, sortKey, Prod.Lex.toLex_le_toLex, compareNotes_isLE_iff]

theorem sortKey_eq_iff {f g : Finding} : f.sortKey = g.sortKey ↔ order f g = .eq := by
  rw [order_eq_eq_iff, ← Verdict.rank_injective.eq_iff, ← noteKey_injective.eq_iff]
  simp only [sortKey, toLex_inj, Prod.mk.injEq]

theorem pairwise_sortKey_sort (fs : List Finding) :
    (sort fs).Pairwise fun f g => f.sortKey ≤ g.sortKey :=
  (pairwise_sort fs).imp order_isLE_iff.1

/-! ## Ties -/

/-- Sorting leaves findings that tie in the order in which they came. -/
theorem filter_sortKey_sort (fs : List Finding) (key : SortKey) :
    (sort fs).filter (·.sortKey = key) = fs.filter (·.sortKey = key) := by
  have hties : (fs.filter (·.sortKey = key)).Pairwise fun f g => (order f g).isLE = true := by
    refine List.pairwise_of_forall_mem_list fun f hf g hg => order_isLE_iff.2 (le_of_eq ?_)
    have hfkey : f.sortKey = key := by simpa using (List.mem_filter.1 hf).2
    have hgkey : g.sortKey = key := by simpa using (List.mem_filter.1 hg).2
    rw [hfkey, hgkey]
  have hsub : (fs.filter (·.sortKey = key)).Sublist (sort fs) :=
    List.sublist_mergeSort (fun _ _ _ => Std.TransCmp.isLE_trans) order_total hties
      List.filter_sublist
  have hlength : (fs.filter (·.sortKey = key)).length =
      ((sort fs).filter (·.sortKey = key)).length := ((sort_perm fs).filter _).length_eq.symm
  have hfilter := hsub.filter fun f => f.sortKey = key
  rw [List.filter_filter] at hfilter
  simp only [Bool.and_self] at hfilter
  exact (hfilter.eq_of_length hlength).symm

theorem subset_of_filter_sortKey_eq {fs gs : List Finding}
    (h : ∀ key, fs.filter (·.sortKey = key) = gs.filter (·.sortKey = key)) : fs ⊆ gs := by
  intro f hf
  have hmem : f ∈ fs.filter (·.sortKey = f.sortKey) := List.mem_filter.2 ⟨hf, by simp⟩
  rw [h] at hmem
  exact (List.mem_filter.1 hmem).1

/-- Sorted lists with the same findings of each key are the same. -/
theorem eq_of_filter_sortKey_eq {fs gs : List Finding}
    (hfs : fs.Pairwise fun f g => f.sortKey ≤ g.sortKey)
    (hgs : gs.Pairwise fun f g => f.sortKey ≤ g.sortKey)
    (h : ∀ key, fs.filter (·.sortKey = key) = gs.filter (·.sortKey = key)) : fs = gs := by
  induction fs generalizing gs with
  | nil =>
      exact (List.subset_nil.1 (subset_of_filter_sortKey_eq fun key => (h key).symm)).symm
  | cons f rest ih =>
      have hmem : f :: rest ⊆ gs := subset_of_filter_sortKey_eq h
      have hmem' : gs ⊆ f :: rest := subset_of_filter_sortKey_eq fun key => (h key).symm
      cases gs with
      | nil => exact absurd (hmem List.mem_cons_self) List.not_mem_nil
      | cons g others =>
          obtain ⟨hf, hrest⟩ := List.pairwise_cons.1 hfs
          obtain ⟨hg, hothers⟩ := List.pairwise_cons.1 hgs
          -- Both heads have the least key, and each is the first finding with it.
          have hle : f.sortKey ≤ g.sortKey := by
            rcases List.mem_cons.1 (hmem' List.mem_cons_self) with rfl | hg'
            · exact le_refl _
            · exact hf g hg'
          have hge : g.sortKey ≤ f.sortKey := by
            rcases List.mem_cons.1 (hmem List.mem_cons_self) with rfl | hf'
            · exact le_refl _
            · exact hg f hf'
          have hheads := h f.sortKey
          simp only [List.filter_cons, le_antisymm hge hle, decide_true, if_true,
            List.cons.injEq] at hheads
          obtain ⟨rfl, htails⟩ := hheads
          have htail : ∀ key, rest.filter (·.sortKey = key) = others.filter (·.sortKey = key) := by
            intro key
            have hfilter := h key
            by_cases hkey : f.sortKey = key <;> simpa [List.filter_cons, hkey] using hfilter
          rw [ih hrest hothers htail]

/-- Lists are sorted into the same one exactly if their findings of each key stand in the same
order. -/
theorem sort_eq_sort_iff {fs gs : List Finding} :
    sort fs = sort gs ↔ ∀ key, fs.filter (·.sortKey = key) = gs.filter (·.sortKey = key) := by
  constructor
  · intro h key
    rw [← filter_sortKey_sort, h, filter_sortKey_sort]
  · intro h
    refine eq_of_filter_sortKey_eq (pairwise_sortKey_sort fs) (pairwise_sortKey_sort gs) ?_
    intro key
    rw [filter_sortKey_sort, filter_sortKey_sort, h]

/-- The keys come out in order, whatever the order in which they came. -/
theorem map_sortKey_sort_of_perm {fs gs : List Finding} (h : fs.Perm gs) :
    (sort fs).map sortKey = (sort gs).map sortKey := by
  have hperm : ((sort fs).map sortKey).Perm ((sort gs).map sortKey) :=
    ((sort_perm fs).trans (h.trans (sort_perm gs).symm)).map sortKey
  have hsorted (fs : List Finding) : ((sort fs).map sortKey).Pairwise (· ≤ ·) :=
    List.pairwise_map.2 (pairwise_sortKey_sort fs)
  exact hperm.eq_of_pairwise (fun _ _ _ _ => le_antisymm) (hsorted fs) (hsorted gs)

/-- No rearrangement shows exactly if findings that tie are the same. -/
theorem sort_rearranged_iff {fs : List Finding} :
    (∀ gs, gs.Perm fs → sort gs = sort fs) ↔
      ∀ f ∈ fs, ∀ g ∈ fs, f.sortKey = g.sortKey → f = g := by
  constructor
  · intro h f hf g hg hkey
    -- With either of the two brought to the front, that one comes first among those that tie.
    have hfront {x : Finding} (hx : x ∈ fs) (hxkey : x.sortKey = f.sortKey) :
        fs.filter (·.sortKey = f.sortKey) =
          x :: (fs.erase x).filter (·.sortKey = f.sortKey) := by
      have hsort := h (x :: fs.erase x) (List.perm_cons_erase hx).symm
      rw [← sort_eq_sort_iff.1 hsort, List.filter_cons_of_pos (by simpa using hxkey)]
    have hheads := (hfront hf rfl).symm.trans (hfront hg hkey.symm)
    exact (List.cons.inj hheads).1
  · intro h gs hperm
    refine sort_eq_of_perm hperm fun f hf g hg heq => ?_
    exact h f (hperm.mem_iff.1 hf) g (hperm.mem_iff.1 hg) (sortKey_eq_iff.2 heq)

end Finding

end ResourceAudit
