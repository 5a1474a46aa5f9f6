import ResourceAudit.Proofs.Configuration.Pushes
import ResourceAudit.Proofs.Configuration.Respelling
import ResourceAudit.Proofs.Json.Plain

/-!
# Configurations from their own documents

`Configuration.toJson` writes a configuration as a document of types, names and attributes. Nothing
in it is taken for a wrapper, unless `resource` is its only type: its text makes the configuration
again (`parse_toJson`).
-/

namespace ResourceAudit

/-! ## Documents of configurations -/

/-- The body of a resource under its name. -/
def Resource.toMember (r : Resource) : String × Json := (r.name, .object r.attributes.entries)

/-- The resources of a group under their type. -/
def Group.toMember (g : Group) : String × Json :=
  (g.type, .object (g.resources.map Resource.toMember))

def Configuration.toJson (c : Configuration) : Json := .object (c.groups.map Group.toMember)

/-- Every object in the tree has each of its keys once. -/
inductive Json.KeysDistinct : Json → Prop
  | null : KeysDistinct .null
  | bool (b : Bool) : KeysDistinct (.bool b)
  | number (n : Number) : KeysDistinct (.number n)
  | string (s : String) : KeysDistinct (.string s)
  | list {items : List Json} (h : ∀ j ∈ items, KeysDistinct j) : KeysDistinct (.list items)
  | object {members : List (String × Json)} (keys : (members.map (·.1)).Nodup)
      (h : ∀ m ∈ members, KeysDistinct m.2) : KeysDistinct (.object members)

theorem Json.KeysDistinct.plain_eq {j : Json} (h : j.KeysDistinct) : j.plain = j := by
  induction h with
  | null | bool | number | string => rfl
  | list _ ih => exact plain_list ih
  | object keys _ ih => exact plain_object keys ih

/-- A resource that a document can tell: well formed, with values of integers of 64 bits, texts,
truth values, nulls, lists and objects that nest at most so deep. -/
def Resource.IsLegible (depth : Nat) (r : Resource) : Prop :=
  ∃ attributes, r.body = .attributes attributes ∧
    ∀ e ∈ attributes.entries, e.2.Legible depth ∧ e.2.KeysDistinct

/-! ## What the documents read as -/

namespace Body

theorem ofJson_entries {attributes : Attributes}
    (h : ∀ e ∈ attributes.entries, e.2.KeysDistinct) :
    ofJson (.object attributes.entries) = .attributes attributes := by
  refine reads_iff.1 (.wellFormed (.bare fun _ => nofun) attributes.nodup_keys fun key value => ?_)
  rw [Dictionary.get?_eq_some_iff]
  constructor
  · exact fun hmem => ⟨value, hmem, (h _ hmem).plain_eq⟩
  · rintro ⟨raw, hmem, rfl⟩
    rwa [(h _ hmem).plain_eq]

end Body

namespace Resource.IsLegible

variable {depth : Nat} {r : Resource}

theorem ofJson_toMember (h : r.IsLegible depth) : Body.ofJson r.toMember.2 = r.body := by
  obtain ⟨attributes, hbody, hvalues⟩ := h
  have hattributes : r.attributes = attributes := by rw [Resource.attributes, hbody]
  rw [toMember, hattributes, Body.ofJson_entries fun e he => (hvalues e he).2, hbody]

theorem legible_toMember (h : r.IsLegible depth) : r.toMember.2.Legible (depth + 1) := by
  obtain ⟨attributes, hbody, hvalues⟩ := h
  have hattributes : r.attributes = attributes := by rw [Resource.attributes, hbody]
  rw [toMember, hattributes]
  exact .object fun e he => (hvalues e he).1

end Resource.IsLegible

namespace Configuration

variable {c : Configuration} {depth : Nat}

theorem readings_toMember {g : Group} (hown : ∀ r ∈ g.resources, r.type = g.type)
    (hlegible : ∀ r ∈ g.resources, r.IsLegible depth) :
    readings [g.toMember] = .ok g.resources := by
  have hresource : ∀ r ∈ g.resources,
      (⟨g.type, r.toMember.1, .ofJson r.toMember.2⟩ : Resource) = r := by
    intro r hr
    rw [(hlegible r hr).ofJson_toMember, ← hown r hr]
    rfl
  have hentries : blockEntries g.type (.object (g.resources.map Resource.toMember)) =
      .ok (g.resources.map Resource.toMember) := rfl
  rw [Group.toMember, readings_singleton, hentries, Except.map, List.map_map]
  exact congrArg Except.ok ((List.map_congr_left hresource).trans (List.map_id' _))

theorem readings_groups {gs : List Group} (hown : ∀ g ∈ gs, ∀ r ∈ g.resources, r.type = g.type)
    (hlegible : ∀ g ∈ gs, ∀ r ∈ g.resources, r.IsLegible depth) :
    readings (gs.map Group.toMember) = .ok (gs.flatMap (·.resources)) := by
  induction gs with
  | nil => rfl
  | cons g rest ih =>
      obtain ⟨hg, hrest⟩ := List.forall_mem_cons.1 hown
      obtain ⟨hglegible, hrestlegible⟩ := List.forall_mem_cons.1 hlegible
      rw [List.map_cons, ← List.singleton_append, readings_append,
        readings_toMember hg hglegible, ih hrest hrestlegible]
      rfl

theorem filter_key_of_nodup {rs : List Resource} (h : (rs.map Resource.key).Nodup) :
    ∀ r ∈ rs, rs.filter (·.key = r.key) = [r] := by
  induction rs with
  | nil => exact nofun
  | cons x rest ih =>
      obtain ⟨hx, hrest⟩ := List.nodup_cons.1 h
      rw [List.forall_mem_cons]
      constructor
      · have hnone : rest.filter (·.key = x.key) = [] := by
          rw [List.filter_eq_nil_iff]
          intro y hy hkey
          exact hx (List.mem_map.2 ⟨y, hy, by simpa using hkey⟩)
        rw [List.filter_cons_of_pos (by simp), hnone]
      · intro r hr
        have hne : x.key ≠ r.key := fun heq => hx (heq ▸ List.mem_map_of_mem hr)
        rw [List.filter_cons_of_neg (by simpa using hne), ih hrest r hr]

/-- Resources of which no two have the same type and name are merged as they are. -/
theorem merged_of_nodup {rs : List Resource} (h : (rs.map Resource.key).Nodup) :
    merged rs = ofList rs := by
  rw [merged, eraseDups_of_nodup h, List.map_map]
  congr 1
  refine (List.map_congr_left fun r hr => ?_).trans (List.map_id' rs)
  rw [Function.comp_apply, filter_key_of_nodup h r hr]
  rfl

theorem ofJson_toJson (hgrouped : c.IsGrouped) (hkeys : (c.resources.map Resource.key).Nodup)
    (htypes : c.types ≠ ["resource"]) (hlegible : ∀ r ∈ c.resources, r.IsLegible depth) :
    ofJson c.toJson = .ok c := by
  have hbare : ∀ inner, c.groups.map Group.toMember ≠ [(wrapperKey, inner)] := by
    intro inner heq
    have hkeys := congrArg (List.map (·.1)) heq
    rw [List.map_map] at hkeys
    exact htypes hkeys
  have hgroups : ∀ g ∈ c.groups, ∀ r ∈ g.resources, r.IsLegible depth :=
    fun g hg r hr => hlegible r (List.mem_flatMap.2 ⟨g, hg, hr⟩)
  have hreadings : readings (c.groups.map Group.toMember) = .ok c.resources :=
    readings_groups hgrouped.ownType hgroups
  rw [toJson, ofJson_eq_readings (documentBlocks_of_ne hbare), hreadings, Except.map,
    merged_of_nodup hkeys, hgrouped.ofList_resources]

theorem legible_toJson (hlegible : ∀ r ∈ c.resources, r.IsLegible depth) :
    c.toJson.Legible (depth + 3) := by
  refine .object fun m hm => ?_
  obtain ⟨g, hg, rfl⟩ := List.mem_map.1 hm
  refine .object fun m hm => ?_
  obtain ⟨r, hr, rfl⟩ := List.mem_map.1 hm
  exact (hlegible r (List.mem_flatMap.2 ⟨g, hg, hr⟩)).legible_toMember

/-- The text of a configuration makes the configuration again, with its types, resources and
attributes in their order. -/
theorem parse_toJson (hgrouped : c.IsGrouped) (hkeys : (c.resources.map Resource.key).Nodup)
    (htypes : c.types ≠ ["resource"])
    (hlegible : ∀ r ∈ c.resources, r.IsLegible (Json.Reader.deepest - 3)) (sp : Json.Spacing) :
    parse (String.ofList (c.toJson.write sp 0)) = .ok c := by
  have htext : c.toJson.Legible Json.Reader.deepest := legible_toJson hlegible
  rw [parse_of_spells (htext.spells sp) htext.nestsWithin]
  exact ofJson_toJson hgrouped hkeys htypes hlegible

/-- A type and a name like the wrapper, a body without attributes, a value alone in lists, and
integers from both ends of the range. -/
theorem parse_toJson_lookalikes :
    let entries : List (String × Json) := [("", .list [.list [.object [("é", .null)]]]),
      ("\x00", .number (.int (-9223372036854775808))),
      ("\"", .number (.int 18446744073709551615))]
    let c := ofList [⟨"resource", "resource", .attributes .empty⟩,
      ⟨"vm", "", .attributes (.ofList entries)⟩,
      ⟨"resource", "vm", .attributes (.ofList entries)⟩]
    parse c.toJson.compact = .ok c ∧ parse c.toJson.pretty = .ok c := by
  intro entries c
  have hentries : (Dictionary.ofList entries).entries = entries := rfl
  have hdistinct : ∀ e ∈ entries, e.2.KeysDistinct := by
    simp only [entries, List.forall_mem_cons, List.not_mem_nil, false_implies, implies_true,
      and_true]
    refine ⟨?_, .number _, .number _⟩
    have hobject : (Json.object [("é", .null)]).KeysDistinct :=
      .object (by decide) (by simpa using .null)
    exact .list (by simpa using .list (by simpa using hobject))
  have hvalues : ∀ e ∈ (Dictionary.ofList entries).entries,
      e.2.Legible (Json.Reader.deepest - 3) ∧ e.2.KeysDistinct := by
    rw [hentries]
    exact fun e he => ⟨(by decide : ∀ e ∈ entries, e.2.Legible (Json.Reader.deepest - 3)) e he,
      hdistinct e he⟩
  have hgrouped : c.IsGrouped := isGrouped_ofList _
  have hlegible : ∀ r ∈ c.resources, r.IsLegible (Json.Reader.deepest - 3) := by
    have hresources : c.resources = [⟨"resource", "resource", .attributes .empty⟩,
        ⟨"resource", "vm", .attributes (.ofList entries)⟩,
        ⟨"vm", "", .attributes (.ofList entries)⟩] := rfl
    rw [hresources]
    simp only [List.forall_mem_cons, List.not_mem_nil, false_implies, implies_true, and_true]
    exact ⟨⟨_, rfl, nofun⟩, ⟨_, rfl, hvalues⟩, ⟨_, rfl, hvalues⟩⟩
  exact ⟨parse_toJson hgrouped (by decide) (by decide) hlegible .none,
    parse_toJson hgrouped (by decide) (by decide) hlegible .lines⟩

end Configuration

end ResourceAudit
