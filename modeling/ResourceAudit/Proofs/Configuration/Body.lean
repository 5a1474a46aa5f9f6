import ResourceAudit.Configuration.Document
import ResourceAudit.Proofs.Dictionary
import Mathlib.Data.List.Induction

/-!
# Reading a body

`Body.Reads` says, without an order of steps, what a declared body means: attributes if it is an
object, in a list of its own or not, whose keys are all different; else a defect, which names the
first key met a second time or the kind of value found. `Body.ofJson` computes it (`Body.reads_iff`).
-/

namespace ResourceAudit

/-! ## What a body means -/

/-- A value out of a list that holds nothing else. -/
inductive Json.Unwraps : Json → Json → Prop
  | item (inner : Json) : Unwraps (.list [inner]) inner
  | bare {body : Json} (h : ∀ inner, body ≠ .list [inner]) : Unwraps body body

/-- What a body that is declared once says about its resource. -/
inductive Body.Reads (body : Json) : Body → Prop
  | wellFormed {members : List (String × Json)} {attributes : Attributes}
      (unwraps : Json.Unwraps body (.object members))
      (keys : (members.map (·.1)).Nodup)
      (values : ∀ key value, attributes.get? key = some value ↔
        ∃ raw, (key, raw) ∈ members ∧ raw.plain = value) :
      Reads body (.attributes attributes)
  | repeatedKey {before after : List (String × Json)} {key : String} {value : Json}
      (unwraps : Json.Unwraps body (.object (before ++ (key, value) :: after)))
      (keys : (before.map (·.1)).Nodup)
      (again : key ∈ before.map (·.1)) :
      Reads body (.malformed s!"duplicate attribute `{key}`")
  | otherKind {inner : Json}
      (unwraps : Json.Unwraps body inner)
      (kind : inner.kind ≠ .object) :
      Reads body (.malformed s!"attributes must be an object, found {inner.kind.phrase}")

theorem unwraps_iff {body inner : Json} : Json.Unwraps body inner ↔ unwrapped body = inner := by
  constructor
  · intro h
    cases h with
    | item => rfl
    | bare hbare =>
        unfold unwrapped
        split
        · exact absurd rfl (hbare _)
        · rfl
  · rintro rfl
    unfold unwrapped
    split
    · exact .item _
    · rename_i hbare
      exact .bare fun inner h => hbare inner h

/-! ## Keys that come again -/

/-- Keys are all different, or one of them is the first that was met before. -/
theorem nodup_or_first_repeat (members : List (String × Json)) :
    (members.map (·.1)).Nodup ∨ ∃ before key value after,
      members = before ++ (key, value) :: after ∧ (before.map (·.1)).Nodup ∧
        key ∈ before.map (·.1) := by
  induction members using List.reverseRecOn with
  | nil => exact Or.inl (by simp)
  | append_singleton members m ih =>
      rcases ih with hnodup | ⟨before, key, value, after, rfl, hbefore, hkey⟩
      · by_cases hm : m.1 ∈ members.map (·.1)
        · exact Or.inr ⟨members, m.1, m.2, [], rfl, hnodup, hm⟩
        · left
          rw [List.map_append, List.map_singleton]
          exact hnodup.append (List.nodup_singleton _) (by simpa using hm)
      · exact Or.inr ⟨before, key, value, after ++ [m], by simp, hbefore, hkey⟩

/-- Keys other than the one added stay new. -/
theorem get?_insert_eq_none {known : Attributes} {key : String} {value : Json}
    {members : List (String × Json)} (hkey : key ∉ members.map (·.1))
    (hnew : ∀ m ∈ members, known.get? m.1 = none) :
    ∀ m ∈ members, (known.insert key value).get? m.1 = none := by
  intro m hm
  have hne : key ≠ m.1 := fun h => hkey (List.mem_map.2 ⟨m, hm, h.symm⟩)
  rw [Dictionary.get?_insert, if_neg hne]
  exact hnew m hm

/-- Members with new and different keys all become attributes. -/
theorem collectAttributes_of_nodup (known : Attributes) {members : List (String × Json)}
    (hnodup : (members.map (·.1)).Nodup) (hnew : ∀ m ∈ members, known.get? m.1 = none) :
    ∃ attributes, collectAttributes known members = .attributes attributes ∧
      ∀ key value, attributes.get? key = some value ↔
        known.get? key = some value ∨ ∃ raw, (key, raw) ∈ members ∧ raw.plain = value := by
  induction members generalizing known with
  | nil => exact ⟨known, rfl, by simp⟩
  | cons m rest ih =>
      obtain ⟨k, v⟩ := m
      obtain ⟨hk, hrest⟩ := List.nodup_cons.1 hnodup
      have hknown : known.get? k = none := hnew _ List.mem_cons_self
      have hnew' : ∀ m ∈ rest, (known.insert k v.plain).get? m.1 = none :=
        get?_insert_eq_none hk fun m hm => hnew m (List.mem_cons_of_mem _ hm)
      obtain ⟨attributes, heq, hvalues⟩ := ih _ hrest hnew'
      refine ⟨attributes, by simp [collectAttributes, hknown, heq], fun key value => ?_⟩
      rw [hvalues, Dictionary.get?_insert]
      by_cases hkey : k = key
      · subst hkey
        have habsent (raw : Json) : (k, raw) ∉ rest :=
          fun hraw => hk (List.mem_map.2 ⟨_, hraw, rfl⟩)
        simp [hknown, habsent]
      · simp [hkey, Ne.symm hkey]

/-- The first key met before, here or earlier, is the defect. -/
theorem collectAttributes_of_repeat (known : Attributes) {before after : List (String × Json)}
    {key : String} {value : Json} (hnodup : (before.map (·.1)).Nodup)
    (hnew : ∀ m ∈ before, known.get? m.1 = none)
    (hagain : key ∈ before.map (·.1) ∨ (known.get? key).isSome) :
    collectAttributes known (before ++ (key, value) :: after) =
      .malformed s!"duplicate attribute `{key}`" := by
  induction before generalizing known with
  | nil =>
      have hsome : (known.get? key).isSome := hagain.resolve_left (by simp)
      simp [collectAttributes, hsome]
  | cons m rest ih =>
      obtain ⟨k, v⟩ := m
      obtain ⟨hk, hrest⟩ := List.nodup_cons.1 hnodup
      have hknown : known.get? k = none := hnew _ List.mem_cons_self
      have hnew' : ∀ m ∈ rest, (known.insert k v.plain).get? m.1 = none :=
        get?_insert_eq_none hk fun m hm => hnew m (List.mem_cons_of_mem _ hm)
      have hagain' :
          key ∈ rest.map (·.1) ∨ ((known.insert k v.plain).get? key).isSome := by
        rw [Dictionary.get?_insert]
        by_cases hkey : k = key
        · simp [hkey]
        · rcases hagain with hmem | hsome
          · left
            simpa [Ne.symm hkey] using hmem
          · right
            simpa [hkey] using hsome
      simp [collectAttributes, hknown, ih _ hrest hnew' hagain']

/-! ## Bodies -/

theorem Body.reads_ofJson (body : Json) : Body.Reads body (.ofJson body) := by
  have hunwraps : Json.Unwraps body (unwrapped body) := unwraps_iff.2 rfl
  unfold Body.ofJson
  split
  · rename_i members hmembers
    rw [hmembers] at hunwraps
    rcases nodup_or_first_repeat members with hnodup | ⟨before, key, value, after, rfl, hb, hk⟩
    · obtain ⟨attributes, heq, hvalues⟩ :=
        collectAttributes_of_nodup .empty hnodup (by simp)
      rw [heq]
      exact .wellFormed hunwraps hnodup (by simpa using hvalues)
    · rw [collectAttributes_of_repeat .empty hb (by simp) (Or.inl hk)]
      exact .repeatedKey hunwraps hb hk
  · rename_i other hobject
    refine .otherKind hunwraps ?_
    cases hinner : unwrapped body <;> simp [Json.kind]
    exact absurd hinner (hobject _)

/-- A body means what is computed from it, and nothing else. -/
theorem Body.reads_iff {body : Json} {b : Body} : Body.Reads body b ↔ Body.ofJson body = b := by
  constructor
  · intro h
    cases h with
    | @wellFormed members attributes hunwraps hkeys hvalues =>
        obtain ⟨attributes', heq, hvalues'⟩ :=
          collectAttributes_of_nodup .empty hkeys (by simp)
        have hsame : attributes' = attributes := by
          apply Dictionary.ext_get?
          intro key
          apply Option.ext
          intro value
          rw [hvalues, hvalues']
          simp
        rw [Body.ofJson, unwraps_iff.1 hunwraps]
        exact hsame ▸ heq
    | repeatedKey hunwraps hkeys hagain =>
        rw [Body.ofJson, unwraps_iff.1 hunwraps]
        exact collectAttributes_of_repeat .empty hkeys (by simp) (Or.inl hagain)
    | @otherKind inner hunwraps hkind =>
        rw [Body.ofJson, unwraps_iff.1 hunwraps]
        cases inner with
        | object members => exact absurd rfl hkind
        | _ => rfl
  · rintro rfl
    exact Body.reads_ofJson body

/-- No body reads as if its resource were declared twice. -/
theorem Body.ofJson_ne_duplicate (body : Json) : Body.ofJson body ≠ .duplicate := by
  intro h
  have hreads := Body.reads_ofJson body
  rw [h, Body.duplicate] at hreads
  generalize hreason : "duplicate resource name" = reason at hreads
  cases hreads with
  | @repeatedKey before after key value _ _ _ =>
      have hchars := congrArg String.toList hreason
      simp [toString] at hchars
  | @otherKind inner _ _ =>
      cases hkind : inner.kind <;> rw [hkind] at hreason <;> exact absurd hreason (by decide)

end ResourceAudit
