import ResourceAudit.Registry
import ResourceAudit.Proofs.Accepted

/-!
# Registries after calls

The registries that a program can come to are those after some calls. To give the checks other
predicates before the calls comes to the same as after them (`afterCalls_map`).
-/

namespace ResourceAudit

namespace Registry

/-- What can be asked of a registry. -/
inductive Call where
  | register (check : Check)
  | freeze

def call (r : Registry) : Call → Registry
  | .register check => (r.offer check).2
  | .freeze => r.freeze

def afterCalls (calls : List Call) : Registry := calls.foldl call empty

/-- What comes of an offer: a refusal that changes nothing, or one check more. -/
theorem offer_cases (r : Registry) (check : Check) :
    ((r.isFrozen ∨ check.info.resourceTypes.isEmpty ∨ (r.places.get? check.id).isSome) ∧
        ∃ e, r.offer check = (.error e, r)) ∨
      r.isFrozen = false ∧ check.info.resourceTypes ≠ [] ∧ r.places.get? check.id = none ∧
        r.offer check = (.ok (), { r with
          checks := r.checks ++ [check]
          places := r.places.insert check.id r.checks.length }) := by
  rw [offer]
  by_cases hfrozen : r.isFrozen = true
  · exact .inl ⟨.inl hfrozen, _, if_pos hfrozen⟩
  · rw [if_neg hfrozen]
    by_cases hempty : check.info.resourceTypes.isEmpty = true
    · exact .inl ⟨.inr (.inl hempty), _, if_pos hempty⟩
    · rw [if_neg hempty]
      by_cases htaken : (r.places.get? check.id).isSome = true
      · exact .inl ⟨.inr (.inr htaken), _, if_pos htaken⟩
      · rw [if_neg htaken]
        refine .inr ⟨Bool.eq_false_iff.2 hfrozen, ?_, ?_, rfl⟩
        · exact fun hnil => hempty (List.isEmpty_iff.2 hnil)
        · exact Option.not_isSome_iff_eq_none.1 htaken

theorem call_register (r : Registry) (check : Check) :
    r.call (.register check) =
      if r.isFrozen ∨ check.info.resourceTypes.isEmpty ∨ (r.places.get? check.id).isSome then r
      else { r with
        checks := r.checks ++ [check]
        places := r.places.insert check.id r.checks.length } := by
  obtain ⟨hrefused, _, hoffer⟩ | ⟨hopen, htypes, hfree, hoffer⟩ := r.offer_cases check
  · rw [call, hoffer, if_pos hrefused]
  · rw [call, hoffer, if_neg]
    simp [hopen, htypes, hfree]

/-! ## Registering in turn -/

theorem checks_of_register_eq_ok {r r' : Registry} {check : Check}
    (h : r.register check = .ok r') : r'.checks = r.checks ++ [check] := by
  obtain ⟨-, _, hoffer⟩ | ⟨-, -, -, hoffer⟩ := r.offer_cases check
  · rw [register, hoffer] at h
    cases h
  · rw [register, hoffer] at h
    cases h
    rfl

/-- Where no check is refused, all are there, in order. -/
theorem checks_of_registerAll_eq_ok {r r' : Registry} {checks : List Check}
    (h : r.registerAll checks = .ok r') : r'.checks = r.checks ++ checks := by
  unfold registerAll at h
  induction checks generalizing r with
  | nil =>
      cases h
      rw [List.append_nil]
  | cons check rest ih =>
      rw [List.foldlM_cons, bind_eq_ok] at h
      obtain ⟨next, hnext, hrest⟩ := h
      rw [ih hrest, checks_of_register_eq_ok hnext, List.append_assoc, List.singleton_append]

/-! ## Other predicates -/

/-- The registry with every check changed, at the same place. -/
def mapChecks (f : Check → Check) (r : Registry) : Registry :=
  { r with checks := r.checks.map f }

def Call.map (f : Check → Check) : Call → Call
  | .register check => .register (f check)
  | .freeze => .freeze

variable {f : Check → Check}

theorem call_map (hinfo : ∀ c, (f c).info = c.info) (r : Registry) (call : Call) :
    (r.mapChecks f).call (call.map f) = (r.call call).mapChecks f := by
  cases call with
  | freeze => rfl
  | register check =>
      have hid : (f check).id = check.id := congrArg CheckInfo.id (hinfo check)
      rw [Call.map, call_register, call_register, hinfo, hid]
      simp only [mapChecks, List.length_map]
      split
      · rfl
      · simp

/-- Registries depend on what checks are known by, not on their predicates. -/
theorem afterCalls_map (hinfo : ∀ c, (f c).info = c.info) (calls : List Call) :
    afterCalls (calls.map (Call.map f)) = (afterCalls calls).mapChecks f := by
  have hfold (r : Registry) :
      (calls.map (Call.map f)).foldl call (r.mapChecks f) =
        (calls.foldl call r).mapChecks f := by
    induction calls generalizing r with
    | nil => rfl
    | cons c rest ih => rw [List.map_cons, List.foldl_cons, call_map hinfo, ih, List.foldl_cons]
  exact hfold empty

theorem checksFor_mapChecks (hinfo : ∀ c, (f c).info = c.info) (r : Registry) (type : String) :
    (r.mapChecks f).checksFor type = (r.checksFor type).map f := by
  rw [checksFor, checksFor, mapChecks, List.filter_map]
  congr 2
  funext c
  rw [Function.comp_apply, hinfo]

end Registry

end ResourceAudit
