import ResourceAudit.Proofs.Dictionary
import ResourceAudit.Proofs.Registry.Calls

/-!
# The index of a registry

The places that a registry keeps are those of its checks, so a check is accepted exactly if the
registry is open, the check supports some type, and no check there has its id
(`register_eq_ok_iff`). Checks with ids of their own are accepted in any order.
-/

namespace ResourceAudit.Registry

/-- The place kept for an id is that of the check with the id. -/
def Indexed (r : Registry) : Prop :=
  ∀ id i, r.places.get? id = some i ↔ ∃ check, r.checks[i]? = some check ∧ check.id = id

variable {r r' : Registry} {check : Check} {checks : List Check}

theorem indexed_empty : Indexed empty := by
  intro id i
  simp [empty]

theorem Indexed.get?_eq_none_iff (h : r.Indexed) {id : String} :
    r.places.get? id = none ↔ ∀ check ∈ r.checks, check.id ≠ id := by
  constructor
  · intro hnone check hmem hid
    obtain ⟨i, hi⟩ := List.mem_iff_getElem?.1 hmem
    have hsome := (h id i).2 ⟨check, hi, hid⟩
    rw [hnone] at hsome
    cases hsome
  · intro hall
    cases hplace : r.places.get? id with
    | none => rfl
    | some i =>
        obtain ⟨check, hi, hid⟩ := (h id i).1 hplace
        exact absurd hid (hall check (List.mem_of_getElem? hi))

/-! ## Acceptance -/

theorem register_eq_ok_iff :
    r.register check = .ok r' ↔
      r.isFrozen = false ∧ check.info.resourceTypes ≠ [] ∧ r.places.get? check.id = none ∧
        r' = { r with
          checks := r.checks ++ [check]
          places := r.places.insert check.id r.checks.length } := by
  constructor
  · intro h
    obtain ⟨-, _, hoffer⟩ | ⟨hopen, htypes, hfree, hoffer⟩ := r.offer_cases check
    · rw [register, hoffer] at h
      cases h
    · rw [register, hoffer] at h
      cases h
      exact ⟨hopen, htypes, hfree, rfl⟩
  · rintro ⟨hopen, htypes, hfree, rfl⟩
    simp [register, offer, hopen, htypes, hfree, Except.map]

theorem getElem?_snoc {α : Type} (xs : List α) (x : α) (i : Nat) :
    (xs ++ [x])[i]? = if i = xs.length then some x else xs[i]? := by
  split
  · rename_i heq
    rw [heq, List.getElem?_append_right (Nat.le_refl _), Nat.sub_self]
    rfl
  · rename_i hne
    rcases Nat.lt_or_gt_of_ne hne with hlt | hgt
    · rw [List.getElem?_append_left hlt]
    · have hlength : (xs ++ [x]).length ≤ i := by
        rw [List.length_append, List.length_singleton]
        exact hgt
      rw [List.getElem?_eq_none hlength, List.getElem?_eq_none (Nat.le_of_lt hgt)]

theorem Indexed.register (h : r.Indexed) (hok : r.register check = .ok r') : r'.Indexed := by
  obtain ⟨_, _, hfree, rfl⟩ := register_eq_ok_iff.1 hok
  have habsent := h.get?_eq_none_iff.1 hfree
  intro id i
  rw [Dictionary.get?_insert, getElem?_snoc]
  by_cases hid : check.id = id
  · rw [if_pos hid, Option.some_inj]
    by_cases hi : i = r.checks.length
    · simp [hi, hid]
    · have hnone : ¬ ∃ other, r.checks[i]? = some other ∧ other.id = id := by
        rintro ⟨other, hother, hsame⟩
        exact habsent other (List.mem_of_getElem? hother) (hsame.trans hid.symm)
      rw [if_neg hi]
      simp only [hnone, iff_false]
      exact fun heq => hi heq.symm
  · rw [if_neg hid, h id i]
    by_cases hi : i = r.checks.length
    · simp [hi, hid]
    · rw [if_neg hi]

/-- Checks of which each supports some type, with ids of their own, are all accepted. -/
theorem Indexed.registerAll_eq_ok (h : r.Indexed) (hopen : r.isFrozen = false)
    (hids : ((r.checks ++ checks).map Check.id).Nodup)
    (htypes : ∀ check ∈ checks, check.info.resourceTypes ≠ []) :
    ∃ r', r.registerAll checks = .ok r' ∧ r'.checks = r.checks ++ checks := by
  induction checks generalizing r with
  | nil => exact ⟨r, rfl, (List.append_nil _).symm⟩
  | cons check rest ih =>
      have hfree : r.places.get? check.id = none := by
        rw [h.get?_eq_none_iff]
        intro other hother hsame
        rw [List.map_append, List.nodup_append] at hids
        refine hids.2.2 _ (List.mem_map_of_mem hother) _ ?_ hsame
        exact List.mem_map_of_mem List.mem_cons_self
      obtain ⟨next, hnext⟩ : ∃ next, r.register check = .ok next :=
        ⟨_, register_eq_ok_iff.2 ⟨hopen, htypes check List.mem_cons_self, hfree, rfl⟩⟩
      have hchecks := checks_of_register_eq_ok hnext
      have hopen' : next.isFrozen = false := by
        obtain ⟨_, _, _, rfl⟩ := register_eq_ok_iff.1 hnext
        exact hopen
      have hids' : ((next.checks ++ rest).map Check.id).Nodup := by
        rwa [hchecks, List.append_assoc, List.singleton_append]
      obtain ⟨last, hlast, hall⟩ := ih (h.register hnext) hopen' hids'
        fun other hother => htypes other (List.mem_cons_of_mem _ hother)
      refine ⟨last, ?_, ?_⟩
      · rw [registerAll, List.foldlM_cons, hnext]
        exact hlast
      · rw [hall, hchecks, List.append_assoc, List.singleton_append]

end ResourceAudit.Registry
