import Mathlib.Data.Finset.Card
import Mathlib.Data.List.Induction
import Mathlib.Data.List.Nodup

/-!
# First occurrences

`List.eraseDups` keeps every element where it first stands. It commutes with what keeps the
order: adding at the end, filtering, and mapping before one more pass.
-/

namespace ResourceAudit

variable {α β : Type} [BEq α] [LawfulBEq α] [BEq β] [LawfulBEq β]

/-- An element at the end stays only where it is new. -/
theorem eraseDups_snoc (xs : List α) (x : α) :
    (xs ++ [x]).eraseDups = if x ∈ xs then xs.eraseDups else xs.eraseDups ++ [x] := by
  rw [List.eraseDups_append]
  by_cases hx : x ∈ xs <;> simp [List.removeAll, hx, List.eraseDups_cons]

theorem nodup_eraseDups (xs : List α) : xs.eraseDups.Nodup := by
  induction xs using List.reverseRecOn with
  | nil => simp
  | append_singleton xs x ih =>
      rw [eraseDups_snoc]
      split
      · exact ih
      · rename_i hx
        exact List.nodup_append.2 ⟨ih, List.nodup_singleton x, by
          intro y hy z hz heq
          rw [List.mem_singleton.1 hz] at heq
          exact hx (heq ▸ List.mem_eraseDups.1 hy)⟩

theorem eraseDups_of_nodup {xs : List α} (h : xs.Nodup) : xs.eraseDups = xs := by
  induction xs using List.reverseRecOn with
  | nil => rfl
  | append_singleton xs x ih =>
      obtain ⟨hxs, -, hnew⟩ := List.nodup_append.1 h
      rw [eraseDups_snoc, if_neg fun hx => hnew x hx x (List.mem_singleton_self x) rfl, ih hxs]

theorem toFinset_eraseDups [DecidableEq α] (xs : List α) : xs.eraseDups.toFinset = xs.toFinset := by
  ext x
  simp

/-- There is one first occurrence for each element. -/
theorem length_eraseDups [DecidableEq α] (xs : List α) :
    xs.eraseDups.length = xs.toFinset.card := by
  rw [← toFinset_eraseDups, List.toFinset_card_of_nodup (nodup_eraseDups xs)]

theorem filter_eraseDups (p : α → Bool) (xs : List α) :
    xs.eraseDups.filter p = (xs.filter p).eraseDups := by
  induction xs using List.reverseRecOn with
  | nil => rfl
  | append_singleton xs x ih =>
      rw [eraseDups_snoc, List.filter_append]
      by_cases hx : x ∈ xs <;> by_cases hp : p x = true <;>
        simp [hx, hp, ih, eraseDups_snoc]

theorem eraseDups_map_eraseDups (f : α → β) (xs : List α) :
    (xs.eraseDups.map f).eraseDups = (xs.map f).eraseDups := by
  induction xs using List.reverseRecOn with
  | nil => rfl
  | append_singleton xs x ih =>
      have hmem : f x ∈ xs.eraseDups.map f ↔ f x ∈ xs.map f := by
        simp only [List.mem_map, List.mem_eraseDups]
      rw [eraseDups_snoc, List.map_append, List.map_singleton, eraseDups_snoc]
      by_cases hx : x ∈ xs
      · rw [if_pos hx, if_pos (List.mem_map_of_mem hx), ih]
      · rw [if_neg hx, List.map_append, List.map_singleton, eraseDups_snoc, ih]
        by_cases hfx : f x ∈ xs.map f
        · rw [if_pos (hmem.2 hfx), if_pos hfx]
        · rw [if_neg (hmem.not.2 hfx), if_neg hfx]

end ResourceAudit
