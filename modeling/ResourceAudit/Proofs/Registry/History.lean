import ResourceAudit.Proofs.Registry.Index

/-!
# Registries and their histories

What holds of a registry after any calls (`afterCalls_kept`): its index and its list agree, its ids
differ, and it consists of the checks that were accepted, in the order of the calls. A check is
refused for exactly one reason, and nothing changes a registry once it is frozen.
-/

namespace ResourceAudit.Registry

variable {r r' : Registry} {check : Check}

/-! ## Histories -/

/-- The check that a call adds, if it adds one. -/
def added (r : Registry) : Call → List Check
  | .register check => if (r.offer check).1.isOk then [check] else []
  | .freeze => []

/-- The checks that are accepted when calls are made in turn, in the order of the calls. -/
def accepted (r : Registry) : List Call → List Check
  | [] => []
  | c :: rest => r.added c ++ accepted (r.call c) rest

/-- What stands against a check: that the registry is frozen, or else that the check supports
nothing, or else that its id is taken. -/
def objection? (r : Registry) (check : Check) : Option RegistryError :=
  if r.isFrozen then some (.frozen check.id)
  else if check.info.resourceTypes = [] then some (.noResourceTypes check.id)
  else if check.id ∈ r.ids then some (.duplicateId check.id)
  else none

/-! ## The invariant -/

/-- The index is that of the checks, and each of them supports some type. -/
structure Sound (r : Registry) : Prop where
  indexed : r.Indexed
  supported : ∀ check ∈ r.checks, check.info.resourceTypes ≠ []

theorem sound_empty : Sound empty := ⟨indexed_empty, nofun⟩

theorem sound_of_register_eq_ok (h : r.Sound) (hok : r.register check = .ok r') : r'.Sound := by
  refine ⟨h.indexed.register hok, ?_⟩
  rw [checks_of_register_eq_ok hok, List.forall_mem_append]
  exact ⟨h.supported, List.forall_mem_singleton.2 (register_eq_ok_iff.1 hok).2.1⟩

theorem sound_call (h : r.Sound) (c : Call) : (r.call c).Sound := by
  cases c with
  | freeze => exact ⟨h.indexed, h.supported⟩
  | register check =>
      obtain ⟨-, _, hoffer⟩ | ⟨-, -, -, hoffer⟩ := r.offer_cases check
      · rwa [call, hoffer]
      · have hok : r.register check = .ok (r.offer check).2 := by
          rw [register, hoffer]
          rfl
        exact sound_of_register_eq_ok h hok

theorem sound_foldl_call (h : r.Sound) (calls : List Call) : (calls.foldl call r).Sound := by
  induction calls generalizing r with
  | nil => exact h
  | cons c rest ih => exact ih (sound_call h c)

theorem sound_afterCalls (calls : List Call) : (afterCalls calls).Sound :=
  sound_foldl_call sound_empty calls

/-! ## Look-ups -/

namespace Indexed

theorem get?_places_iff (h : r.Indexed) {id : String} {i : Nat} :
    r.places.get? id = some i ↔ ∃ hi : i < r.checks.length, r.checks[i].id = id := by
  rw [h id i]
  constructor
  · rintro ⟨check, hcheck, hid⟩
    obtain ⟨hi, rfl⟩ := List.getElem?_eq_some_iff.1 hcheck
    exact ⟨hi, hid⟩
  · rintro ⟨hi, hid⟩
    exact ⟨_, List.getElem?_eq_getElem hi, hid⟩

theorem nodup_ids (h : r.Indexed) : r.ids.Nodup := by
  rw [ids, List.Nodup, List.pairwise_map, List.pairwise_iff_getElem]
  intro i j hi hj hlt heq
  have hplace := h.get?_places_iff.2 ⟨hi, heq⟩
  rw [h.get?_places_iff.2 ⟨hj, rfl⟩] at hplace
  exact absurd (Option.some.inj hplace) (Nat.ne_of_gt hlt)

theorem get?_eq_some_iff (h : r.Indexed) {id : String} :
    r.get? id = some check ↔ check ∈ r.checks ∧ check.id = id := by
  have hget : r.get? id = some check ↔
      ∃ i, r.places.get? id = some i ∧ r.checks[i]? = some check := Option.bind_eq_some_iff
  rw [hget]
  constructor
  · rintro ⟨i, hplace, hcheck⟩
    obtain ⟨other, hother, hid⟩ := (h id i).1 hplace
    obtain rfl := Option.some.inj (hcheck.symm.trans hother)
    exact ⟨List.mem_of_getElem? hcheck, hid⟩
  · rintro ⟨hmem, hid⟩
    obtain ⟨i, hcheck⟩ := List.mem_iff_getElem?.1 hmem
    exact ⟨i, (h id i).2 ⟨check, hcheck, hid⟩, hcheck⟩

/-- A place is kept for the ids of the checks, and for no other. -/
theorem isSome_get?_places_iff (h : r.Indexed) {id : String} :
    (r.places.get? id).isSome = true ↔ id ∈ r.ids := by
  rw [← not_iff_not, Bool.not_eq_true, Option.isSome_eq_false_iff, Option.isNone_iff_eq_none,
    h.get?_eq_none_iff, ids, List.mem_map]
  simp

theorem offer_eq_error_iff (h : r.Indexed) {e : RegistryError} :
    (r.offer check).1 = .error e ↔ r.objection? check = some e := by
  have htaken : (r.places.get? check.id).isSome = true ↔ check.id ∈ r.ids :=
    h.isSome_get?_places_iff
  unfold offer objection?
  split
  · simp
  · by_cases hempty : check.info.resourceTypes = []
    · simp [hempty]
    · by_cases hid : check.id ∈ r.ids <;> simp [hempty, hid, htaken]

end Indexed

theorem checksFor_sublist (r : Registry) (type : String) :
    (r.checksFor type).Sublist r.checks := List.filter_sublist

/-! ## Calls -/

theorem snd_offer_of_error {e : RegistryError} (h : (r.offer check).1 = .error e) :
    (r.offer check).2 = r := by
  obtain ⟨-, _, hoffer⟩ | ⟨-, -, -, hoffer⟩ := r.offer_cases check
  · rw [hoffer]
  · rw [hoffer] at h
    cases h

theorem checks_call (r : Registry) (c : Call) : (r.call c).checks = r.checks ++ r.added c := by
  cases c with
  | freeze => exact (List.append_nil _).symm
  | register check =>
      obtain ⟨-, _, hoffer⟩ | ⟨-, -, -, hoffer⟩ := r.offer_cases check <;>
        simp [call, added, hoffer, Except.isOk, Except.toBool]

theorem checks_foldl_call (r : Registry) (calls : List Call) :
    (calls.foldl call r).checks = r.checks ++ accepted r calls := by
  induction calls generalizing r with
  | nil => exact (List.append_nil _).symm
  | cons c rest ih => rw [List.foldl_cons, ih, checks_call, List.append_assoc, accepted]

theorem isFrozen_call_iff (r : Registry) (c : Call) :
    (r.call c).isFrozen = true ↔ r.isFrozen = true ∨ c = .freeze := by
  cases c with
  | freeze => simp [call, freeze]
  | register check =>
      have hsame : (r.call (.register check)).isFrozen = r.isFrozen := by
        rw [call_register]
        split <;> rfl
      simp [hsame]

theorem isFrozen_foldl_call_iff (r : Registry) (calls : List Call) :
    (calls.foldl call r).isFrozen = true ↔ r.isFrozen = true ∨ .freeze ∈ calls := by
  induction calls generalizing r with
  | nil => simp
  | cons c rest ih =>
      rw [List.foldl_cons, ih, isFrozen_call_iff, List.mem_cons, or_assoc, eq_comm (a := c)]

/-! ## Frozen registries -/

theorem call_of_isFrozen (h : r.isFrozen = true) (c : Call) : r.call c = r := by
  cases c with
  | freeze =>
      rw [call, freeze, ← h]
  | register check => rw [call_register, if_pos (.inl h)]

theorem foldl_call_of_isFrozen (h : r.isFrozen = true) (calls : List Call) :
    calls.foldl call r = r := by
  induction calls with
  | nil => rfl
  | cons c rest ih => rw [List.foldl_cons, call_of_isFrozen h, ih]

theorem afterCalls_append_freeze (calls later : List Call) :
    afterCalls (calls ++ .freeze :: later) = (afterCalls calls).freeze := by
  rw [afterCalls, List.foldl_append, List.foldl_cons]
  exact foldl_call_of_isFrozen rfl later

/-! ## All histories -/

/-- What holds of the registry after calls. -/
structure Kept (calls : List Call) (r : Registry) : Prop where
  places : ∀ id i,
    r.places.get? id = some i ↔ ∃ hi : i < r.checks.length, r.checks[i].id = id
  ids : r.ids.Nodup
  supported : ∀ check ∈ r.checks, check.info.resourceTypes ≠ []
  checks : r.checks = accepted empty calls
  isFrozen : r.isFrozen = true ↔ .freeze ∈ calls
  refused : ∀ check e, (r.offer check).1 = .error e ↔ r.objection? check = some e
  unchanged : ∀ check e, (r.offer check).1 = .error e → (r.offer check).2 = r
  settled : ∀ later, let last := afterCalls (calls ++ .freeze :: later)
    last.ids = r.ids ∧ last.get? = r.get? ∧ last.checksFor = r.checksFor ∧ last.size = r.size
  get? : ∀ id check, r.get? id = some check ↔ check ∈ r.checks ∧ check.id = id
  checksFor : ∀ type, (r.checksFor type).Sublist r.checks ∧
    ((r.checksFor type).map Check.id).Nodup ∧
    ∀ check, check ∈ r.checksFor type ↔ check ∈ r.checks ∧ type ∈ check.info.resourceTypes

theorem afterCalls_kept (calls : List Call) : Kept calls (afterCalls calls) := by
  have hsound := sound_afterCalls calls
  have hnodup := hsound.indexed.nodup_ids
  constructor
  case places => exact fun id i => hsound.indexed.get?_places_iff
  case ids => exact hnodup
  case supported => exact hsound.supported
  case checks => exact checks_foldl_call empty calls
  case isFrozen =>
    rw [afterCalls, isFrozen_foldl_call_iff]
    simp [empty]
  case refused => exact fun check e => hsound.indexed.offer_eq_error_iff
  case unchanged => exact fun check e => snd_offer_of_error
  case settled =>
    intro later
    rw [afterCalls_append_freeze]
    exact ⟨rfl, rfl, rfl, rfl⟩
  case get? => exact fun id check => hsound.indexed.get?_eq_some_iff
  case checksFor =>
    intro type
    have hsub := (afterCalls calls).checksFor_sublist type
    refine ⟨hsub, hnodup.sublist (hsub.map _), fun check => ?_⟩
    simp [Registry.checksFor, CheckInfo.supports]

/-- One check is accepted; the others support nothing, come second or come too late. -/
example :
    let offer (id : String) (types : List String) : Call :=
      .register (.pure (.of id "" [] types) fun _ => .verdict .passed)
    (afterCalls [offer "B" [], offer "A" ["vm"], offer "A" ["net"], .freeze,
      offer "C" ["vm"]]).ids = ["A"] := by
  decide

end ResourceAudit.Registry
