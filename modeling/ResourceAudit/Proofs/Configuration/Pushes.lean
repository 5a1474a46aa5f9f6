import ResourceAudit.Proofs.Configuration.Grouping
import Mathlib.Data.List.Nodup

/-!
# Configurations made by pushes

A push keeps the groups in order: one for each type, none empty, and no resource in a group of
another type (`IsGrouped.push`). Configurations of this form are those that their own resources,
collected anew, lead to (`ofList_eq_iff`). What a configuration says of the resources pushed,
whatever the order and the number of them, is collected in `Gathers`.
-/

namespace ResourceAudit

namespace Configuration

variable {c : Configuration} {r : Resource} {rs : List Resource}

/-! ## One push -/

/-- Every type has one group, which is not empty and holds resources of the type only. -/
structure IsGrouped (c : Configuration) : Prop where
  types : c.types.Nodup
  nonempty : ∀ g ∈ c.groups, g.resources ≠ []
  ownType : ∀ g ∈ c.groups, ∀ r ∈ g.resources, r.type = g.type

theorem mem_pushTo {gs : List Group} {g : Group} (h : g ∈ pushTo r gs) :
    g ∈ gs ∨ g = ⟨r.type, [r]⟩ ∨
      ∃ g' ∈ gs, g'.type = r.type ∧ g = ⟨g'.type, g'.resources ++ [r]⟩ := by
  induction gs with
  | nil => exact .inr (.inl (List.mem_singleton.1 h))
  | cons g' rest ih =>
      unfold pushTo at h
      split at h
      · rename_i htype
        rcases List.mem_cons.1 h with rfl | h
        · exact .inr (.inr ⟨g', List.mem_cons_self, htype, rfl⟩)
        · exact .inl (List.mem_cons_of_mem _ h)
      · rcases List.mem_cons.1 h with rfl | h
        · exact .inl List.mem_cons_self
        · rcases ih h with hold | hnew | ⟨g'', hg'', hlonger⟩
          · exact .inl (List.mem_cons_of_mem _ hold)
          · exact .inr (.inl hnew)
          · exact .inr (.inr ⟨g'', List.mem_cons_of_mem _ hg'', hlonger⟩)

theorem map_type_pushTo (r : Resource) (gs : List Group) :
    (pushTo r gs).map (·.type) =
      if r.type ∈ gs.map (·.type) then gs.map (·.type) else gs.map (·.type) ++ [r.type] := by
  induction gs with
  | nil => rfl
  | cons g rest ih =>
      unfold pushTo
      by_cases htype : g.type = r.type
      · simp [htype]
      · rw [if_neg htype, List.map_cons, ih, List.map_cons]
        by_cases hmem : r.type ∈ rest.map (·.type)
        · simp [hmem]
        · simp [hmem, Ne.symm htype]

theorem types_push (c : Configuration) (r : Resource) :
    (c.push r).types = if r.type ∈ c.types then c.types else c.types ++ [r.type] :=
  map_type_pushTo r c.groups

theorem isGrouped_empty : IsGrouped empty := ⟨.nil, nofun, nofun⟩

protected theorem IsGrouped.push (h : c.IsGrouped) (r : Resource) : (c.push r).IsGrouped where
  types := by
    rw [types_push]
    split
    · exact h.types
    · rename_i hnew
      exact h.types.append (List.nodup_singleton _) (by simpa using hnew)
  nonempty := by
    intro g hg
    rcases mem_pushTo hg with hold | rfl | ⟨g', _, _, rfl⟩
    · exact h.nonempty g hold
    · simp
    · simp
  ownType := by
    intro g hg x hx
    rcases mem_pushTo hg with hold | rfl | ⟨g', hg', htype, rfl⟩
    · exact h.ownType g hold x hx
    · rw [List.mem_singleton.1 hx]
    · rcases List.mem_append.1 hx with hx | hx
      · exact h.ownType g' hg' x hx
      · rw [List.mem_singleton.1 hx]
        exact htype.symm

/-! ## Many pushes -/

theorem IsGrouped.foldl_push (h : c.IsGrouped) (rs : List Resource) :
    (rs.foldl push c).IsGrouped := by
  induction rs generalizing c with
  | nil => exact h
  | cons r rest ih => exact ih (h.push r)

theorem isGrouped_ofList (rs : List Resource) : (ofList rs).IsGrouped :=
  isGrouped_empty.foldl_push rs

theorem pushTo_append {done : List Group} (h : r.type ∉ done.map (·.type)) (gs : List Group) :
    pushTo r (done ++ gs) = done ++ pushTo r gs := by
  induction done with
  | nil => rfl
  | cons g rest ih =>
      rw [List.map_cons, List.mem_cons, not_or] at h
      rw [List.cons_append, pushTo, if_neg (Ne.symm h.1), ih h.2, List.cons_append]

/-- Resources of one type lengthen its group. -/
theorem foldl_push_last {done : List Group} {type : String} (hnew : type ∉ done.map (·.type))
    (before : List Resource) {rs : List Resource} (h : ∀ r ∈ rs, r.type = type) :
    rs.foldl push ⟨done ++ [⟨type, before⟩]⟩ = ⟨done ++ [⟨type, before ++ rs⟩]⟩ := by
  induction rs generalizing before with
  | nil => rw [List.foldl_nil, List.append_nil]
  | cons r rest ih =>
      obtain ⟨rfl, hrest⟩ := List.forall_mem_cons.1 h
      have hstep : push ⟨done ++ [⟨r.type, before⟩]⟩ r =
          ⟨done ++ [⟨r.type, before ++ [r]⟩]⟩ := by
        rw [push, pushTo_append hnew, pushTo, if_pos rfl]
      rw [List.foldl_cons, hstep, ih _ hrest, List.append_assoc, List.singleton_append]

theorem foldl_push_group {done : List Group} {g : Group} (hnew : g.type ∉ done.map (·.type))
    (hne : g.resources ≠ []) (hown : ∀ r ∈ g.resources, r.type = g.type) :
    g.resources.foldl push ⟨done⟩ = ⟨done ++ [g]⟩ := by
  obtain ⟨type, resources⟩ := g
  obtain ⟨r, rest, rfl⟩ := List.exists_cons_of_ne_nil hne
  obtain ⟨rfl, hrest⟩ := List.forall_mem_cons.1 hown
  have hstep : push ⟨done⟩ r = ⟨done ++ [⟨r.type, [r]⟩]⟩ := by
    have happend := pushTo_append hnew []
    rw [List.append_nil] at happend
    rw [push, happend, pushTo]
  rw [List.foldl_cons, hstep, foldl_push_last hnew _ hrest, List.singleton_append]

/-- Groups whose resources are pushed behind others of other types come out as they are. -/
theorem foldl_push_groups (done : List Group) {gs : List Group}
    (htypes : ((done ++ gs).map (·.type)).Nodup) (hne : ∀ g ∈ gs, g.resources ≠ [])
    (hown : ∀ g ∈ gs, ∀ r ∈ g.resources, r.type = g.type) :
    (gs.flatMap (·.resources)).foldl push ⟨done⟩ = ⟨done ++ gs⟩ := by
  induction gs generalizing done with
  | nil => rw [List.flatMap_nil, List.foldl_nil, List.append_nil]
  | cons g rest ih =>
      obtain ⟨hg, hrest⟩ := List.forall_mem_cons.1 hne
      obtain ⟨hgown, hrestown⟩ := List.forall_mem_cons.1 hown
      have hnew : g.type ∉ done.map (·.type) := by
        intro hmem
        rw [List.map_append, List.nodup_append] at htypes
        exact htypes.2.2 _ hmem _ (by simp) rfl
      rw [List.append_cons] at htypes ⊢
      rw [List.flatMap_cons, List.foldl_append, foldl_push_group hnew hg hgown,
        ih _ htypes hrest hrestown]

theorem IsGrouped.ofList_resources (h : c.IsGrouped) : ofList c.resources = c :=
  foldl_push_groups [] h.types h.nonempty h.ownType

/-- A configuration is kept by collecting it anew exactly if pushes can make it. -/
theorem ofList_eq_iff : ofList c.resources = c ↔ c.IsGrouped := by
  constructor
  · intro h
    rw [← h]
    exact isGrouped_ofList _
  · exact IsGrouped.ofList_resources

/-! ## What is kept of the pushes -/

/-- Pushes of these resources, in this order, make the configuration: one by one, from nothing or
behind what was collected. -/
inductive Pushed : List Resource → Configuration → Prop
  | nothing : Pushed [] empty
  | collected (rs : List Resource) : Pushed rs (ofList rs)
  | push {rs : List Resource} {c : Configuration} (h : Pushed rs c) (r : Resource) :
      Pushed (rs ++ [r]) (c.push r)

/-- What a configuration says of the resources that were pushed. -/
structure Gathers (c : Configuration) (rs : List Resource) : Prop where
  distinct : c.types.Nodup
  nonempty : ∀ g ∈ c.groups, g.resources ≠ []
  ownType : ∀ g ∈ c.groups, ∀ r ∈ g.resources, r.type = g.type
  types : c.types = (rs.map (·.type)).eraseDups
  ofType : ∀ type, c.ofType type = rs.filter (·.type = type)
  resources : c.resources = (c.groups.map (·.resources)).flatten
  perm : c.resources.Perm rs
  resourceCount : c.resourceCount = rs.length
  typeCount : c.typeCount = (rs.map (·.type)).toFinset.card
  isEmpty : c.isEmpty = true ↔ rs = []
  again : ofList c.resources = c

theorem Pushed.eq_ofList (h : Pushed rs c) : c = ofList rs := by
  induction h with
  | nothing => rfl
  | collected rs => rfl
  | push _ r ih => rw [ofList_snoc, ih]

theorem length_types (c : Configuration) : c.types.length = c.typeCount := List.length_map _

theorem gathers_of_pushed (h : Pushed rs c) : c.Gathers rs := by
  obtain rfl := h.eq_ofList
  have hgrouped := isGrouped_ofList rs
  have hperm := resources_perm_ofList rs
  constructor
  case distinct => exact hgrouped.types
  case nonempty => exact hgrouped.nonempty
  case ownType => exact hgrouped.ownType
  case types => exact types_ofList rs
  case ofType => exact ofType_ofList rs
  case resources => exact List.flatMap_def
  case perm => exact hperm
  case resourceCount => exact hperm.length_eq
  case typeCount => rw [← length_types, types_ofList, length_eraseDups]
  case isEmpty =>
    have hcount : (ofList rs).resourceCount = rs.length := hperm.length_eq
    rw [isEmpty, hcount, beq_iff_eq, List.length_eq_zero_iff]
  case again => exact hgrouped.ofList_resources

/-- A name that comes three times, with resources of another type between, and one pushed behind
what was collected. -/
theorem gathers_repeatedNames :
    let web (reason : String) : Resource := ⟨"vm", "web", .malformed reason⟩
    let net : Resource := ⟨"net", "a", .attributes .empty⟩
    let c : Configuration := (ofList [web "first", net, web "second"]).push (web "third")
    c.Gathers [web "first", net, web "second", web "third"] ∧
      c = ⟨[⟨"vm", [web "first", web "second", web "third"]⟩, ⟨"net", [net]⟩]⟩ := by
  intro web net c
  exact ⟨gathers_of_pushed (.push (.collected [web "first", net, web "second"]) _), rfl⟩

end Configuration

end ResourceAudit
