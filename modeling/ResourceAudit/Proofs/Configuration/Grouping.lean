import ResourceAudit.Configuration
import ResourceAudit.Proofs.Occurrence

/-!
# Grouping resources by type

Resources pushed in turn make one group for each type that occurs, in the order of first
occurrence, and a group holds the resources of its type as they came (`groups_ofList`). What a
configuration says about types and resources follows from this form.
-/

namespace ResourceAudit

namespace Configuration

/-! ## One group for each type -/

/-- The group that resources of a type make among others. -/
def groupOf (rs : List Resource) (type : String) : Group := ⟨type, rs.filter (·.type = type)⟩

theorem groupOf_snoc (rs : List Resource) (r : Resource) (type : String) :
    groupOf (rs ++ [r]) type =
      if type = r.type then ⟨type, (groupOf rs type).resources ++ [r]⟩ else groupOf rs type := by
  by_cases htype : type = r.type
  · subst htype
    simp [groupOf]
  · simp [groupOf, htype, Ne.symm htype]

/-- A push lengthens the group of its type, or adds one. -/
theorem pushTo_map_groupOf (r : Resource) (rs : List Resource) {types : List String}
    (hnodup : types.Nodup) (habsent : r.type ∉ types → groupOf rs r.type = ⟨r.type, []⟩) :
    pushTo r (types.map (groupOf rs)) =
      (if r.type ∈ types then types else types ++ [r.type]).map (groupOf (rs ++ [r])) := by
  induction types with
  | nil =>
      have hempty : (groupOf rs r.type).resources = [] := by rw [habsent (by simp)]
      simp [pushTo, groupOf_snoc, hempty]
  | cons type rest ih =>
      obtain ⟨hnew, hrest⟩ := List.nodup_cons.1 hnodup
      by_cases htype : type = r.type
      · have hkeep : ∀ t ∈ rest, groupOf (rs ++ [r]) t = groupOf rs t := by
          intro t ht
          rw [groupOf_snoc, if_neg]
          rintro rfl
          exact hnew (htype ▸ ht)
        have hhead : groupOf (rs ++ [r]) type =
            ⟨type, (groupOf rs type).resources ++ [r]⟩ := by
          rw [groupOf_snoc, if_pos htype]
        have hgroup : (groupOf rs type).type = r.type := htype
        rw [if_pos (by simp [htype]), List.map_cons, List.map_cons, pushTo, if_pos hgroup, hhead,
          List.map_congr_left hkeep]
        rfl
      · have hgroup : (groupOf rs type).type ≠ r.type := htype
        have hhead : groupOf (rs ++ [r]) type = groupOf rs type := by
          rw [groupOf_snoc, if_neg htype]
        have hrest' := ih hrest fun habs => habsent (by simp [habs, Ne.symm htype])
        rw [List.map_cons, pushTo, if_neg hgroup, hrest']
        by_cases hmem : r.type ∈ rest
        · simp [hmem, hhead]
        · simp [hmem, hhead, Ne.symm htype]

theorem ofList_snoc (rs : List Resource) (r : Resource) :
    ofList (rs ++ [r]) = (ofList rs).push r := by
  simp [ofList, List.foldl_append]

/-- One group for each type, in the order of first occurrence. -/
theorem groups_ofList (rs : List Resource) :
    (ofList rs).groups = (rs.map (·.type)).eraseDups.map (groupOf rs) := by
  induction rs using List.reverseRecOn with
  | nil => rfl
  | append_singleton rs r ih =>
      have habsent : r.type ∉ (rs.map (·.type)).eraseDups →
          groupOf rs r.type = ⟨r.type, []⟩ := by
        intro habs
        rw [List.mem_eraseDups, List.mem_map] at habs
        simp only [groupOf, Group.mk.injEq, List.filter_eq_nil_iff, decide_eq_true_eq, true_and]
        exact fun x hx heq => habs ⟨x, hx, heq⟩
      rw [ofList_snoc, push, ih, pushTo_map_groupOf r rs (nodup_eraseDups _) habsent,
        List.map_append, List.map_singleton, eraseDups_snoc]
      simp only [List.mem_eraseDups]

/-! ## Types and resources -/

theorem types_ofList (rs : List Resource) : (ofList rs).types = (rs.map (·.type)).eraseDups := by
  rw [types, groups_ofList, List.map_map]
  exact List.map_id _

/-- The resources of a type are those pushed, in the order of the pushes. -/
theorem ofType_ofList (rs : List Resource) (type : String) :
    (ofList rs).ofType type = rs.filter (·.type = type) := by
  have hfind (types : List String) :
      (types.map (groupOf rs)).find? (fun g => g.type = type) =
        if type ∈ types then some (groupOf rs type) else none := by
    induction types with
    | nil => rfl
    | cons t rest ih =>
        rw [List.map_cons, List.find?_cons, ih]
        by_cases ht : t = type
        · subst ht
          simp [groupOf]
        · simp [groupOf, ht, Ne.symm ht]
  rw [ofType, groups_ofList, hfind]
  by_cases hmem : type ∈ (rs.map (·.type)).eraseDups
  · rw [if_pos hmem]
    rfl
  · rw [if_neg hmem]
    symm
    rw [List.filter_eq_nil_iff]
    intro r hr hrt
    exact hmem (List.mem_eraseDups.2 (List.mem_map.2 ⟨r, hr, by simpa using hrt⟩))

/-- Group by group, a configuration lists the resources of its types. -/
theorem resources_ofList (rs : List Resource) :
    (ofList rs).resources = (ofList rs).types.flatMap (ofList rs).ofType := by
  have htype : (ofList rs).ofType = fun t => rs.filter (·.type = t) :=
    funext (ofType_ofList rs)
  rw [resources, groups_ofList, types_ofList, htype, List.flatMap_map]
  rfl

theorem resources_pushTo_perm (r : Resource) (gs : List Group) :
    ((pushTo r gs).flatMap (·.resources)).Perm (gs.flatMap (·.resources) ++ [r]) := by
  induction gs with
  | nil => exact .refl _
  | cons g rest ih =>
      unfold pushTo
      split
      · simp only [List.flatMap_cons, List.append_assoc]
        exact (List.perm_append_comm).append_left _
      · simpa only [List.flatMap_cons, List.append_assoc] using ih.append_left g.resources

/-- Grouping neither loses nor adds a resource. -/
theorem resources_perm_ofList (rs : List Resource) : (ofList rs).resources.Perm rs := by
  induction rs using List.reverseRecOn with
  | nil => exact .refl _
  | append_singleton rs r ih =>
      rw [ofList_snoc]
      exact (resources_pushTo_perm r _).trans (ih.append_right [r])

end Configuration

end ResourceAudit
