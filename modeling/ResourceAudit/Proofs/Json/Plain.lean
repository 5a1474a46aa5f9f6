import ResourceAudit.Json.Basic
import ResourceAudit.Proofs.Occurrence
import Mathlib.Data.List.Nodup

/-!
# One member for each key

Members with distinct keys stand for themselves. Of others, `putAll` keeps one for each key, at the
place of the first and with the value of the last. `PlainOf` says the same of a whole tree, without
an order of steps; `plain` computes it (`plainOf_iff`).
-/

namespace ResourceAudit.Json

theorem put_of_notMem {α : Type} {key : String} {value : α} {members : List (String × α)}
    (h : key ∉ members.map (·.1)) : put key value members = members ++ [(key, value)] := by
  induction members with
  | nil => rfl
  | cons m rest ih =>
      obtain ⟨k, v⟩ := m
      rw [List.map_cons, List.mem_cons, not_or] at h
      rw [put, if_neg (Ne.symm h.1), ih h.2, List.cons_append]

theorem foldl_put_of_nodup {α : Type} (done : List (String × α)) {members : List (String × α)}
    (h : ((done ++ members).map (·.1)).Nodup) :
    members.foldl (fun acc m => put m.1 m.2 acc) done = done ++ members := by
  induction members generalizing done with
  | nil => simp
  | cons m rest ih =>
      have hm : m.1 ∉ done.map (·.1) := by
        intro hmem
        rw [List.map_append, List.nodup_append] at h
        exact h.2.2 _ hmem _ (by simp) rfl
      rw [List.append_cons] at h ⊢
      rw [List.foldl_cons, put_of_notMem hm, ih _ h]

theorem putAll_of_nodup {α : Type} {members : List (String × α)}
    (h : (members.map (·.1)).Nodup) : putAll members = members :=
  foldl_put_of_nodup [] h

theorem plain_object {members : List (String × Json)} (hkeys : (members.map (·.1)).Nodup)
    (h : ∀ m ∈ members, m.2.plain = m.2) : (object members).plain = object members := by
  have hmembers : ∀ m ∈ members, (m.1, m.2.plain) = m := fun m hm => by rw [h m hm]
  rw [plain, plainMembers_eq_map, List.map_congr_left hmembers, List.map_id', putAll_of_nodup hkeys]

theorem plain_list {items : List Json} (h : ∀ j ∈ items, j.plain = j) :
    (list items).plain = list items := by
  rw [plain, plainItems_eq_map, List.map_congr_left h, List.map_id']

/-! ## Members that come again -/

section

variable {α : Type}

/-- The value of the last member of a key. -/
def lastValue? (key : String) (members : List (String × α)) : Option α :=
  (members.filter (·.1 = key)).getLast?.map (·.2)

theorem lastValue?_snoc (key k : String) (v : α) (members : List (String × α)) :
    lastValue? key (members ++ [(k, v)]) = if k = key then some v else lastValue? key members := by
  rw [lastValue?, List.filter_append]
  split
  · rename_i hk
    simp [hk]
  · rename_i hk
    simp [hk, lastValue?]

theorem isSome_lastValue? {key : String} {members : List (String × α)}
    (h : key ∈ members.map (·.1)) : ∃ value, lastValue? key members = some value := by
  obtain ⟨m, hm, rfl⟩ := List.mem_map.1 h
  have hne : members.filter (·.1 = m.1) ≠ [] :=
    List.ne_nil_of_mem (List.mem_filter.2 ⟨hm, by simp⟩)
  exact ⟨_, by rw [lastValue?, List.getLast?_eq_some_getLast hne]; rfl⟩

theorem lastValue?_map {β : Type} (f : α → β) (key : String) (members : List (String × α)) :
    lastValue? key (members.map fun m => (m.1, f m.2)) = (lastValue? key members).map f := by
  rw [lastValue?, lastValue?, List.filter_map, List.getLast?_map, Option.map_map, Option.map_map]
  rfl

theorem keys_put (key : String) (value : α) (members : List (String × α)) :
    (put key value members).map (·.1) =
      if key ∈ members.map (·.1) then members.map (·.1) else members.map (·.1) ++ [key] := by
  induction members with
  | nil => rfl
  | cons m rest ih =>
      obtain ⟨k, v⟩ := m
      rw [put]
      by_cases hk : k = key
      · simp [hk]
      · rw [if_neg hk, List.map_cons, ih]
        by_cases hmem : key ∈ rest.map (·.1)
        · rw [if_pos hmem, List.map_cons, if_pos (List.mem_cons_of_mem _ hmem)]
        · rw [if_neg hmem, List.map_cons, if_neg (by simpa [Ne.symm hk] using hmem),
            List.cons_append]

theorem mem_put {key k : String} {value v : α} {members : List (String × α)}
    (h : (members.map (·.1)).Nodup) :
    (key, value) ∈ put k v members ↔
      if k = key then v = value else (key, value) ∈ members := by
  induction members with
  | nil =>
      by_cases hk : k = key
      · simp [put, hk, eq_comm]
      · simp [put, hk, Ne.symm hk]
  | cons m rest ih =>
      obtain ⟨k', v'⟩ := m
      obtain ⟨hk', hrest⟩ := List.nodup_cons.1 h
      have habsent (x : α) : (k', x) ∉ rest := fun hx => hk' (List.mem_map.2 ⟨_, hx, rfl⟩)
      rw [put]
      by_cases hplace : k' = k
      · subst hplace
        rw [if_pos rfl, List.mem_cons, List.mem_cons]
        by_cases hkey : k' = key
        · subst hkey
          simp [habsent, eq_comm]
        · simp [hkey, Ne.symm hkey]
      · rw [if_neg hplace, List.mem_cons, List.mem_cons, ih hrest]
        by_cases hkey : k = key
        · subst hkey
          simp [Ne.symm hplace]
        · simp [hkey]

theorem putAll_snoc (members : List (String × α)) (m : String × α) :
    putAll (members ++ [m]) = put m.1 m.2 (putAll members) := by
  simp [putAll, List.foldl_append]

/-- Every key is kept where it first stands. -/
theorem keys_putAll (members : List (String × α)) :
    (putAll members).map (·.1) = (members.map (·.1)).eraseDups := by
  induction members using List.reverseRecOn with
  | nil => rfl
  | append_singleton members m ih =>
      rw [putAll_snoc, keys_put, ih, List.map_append, List.map_singleton, eraseDups_snoc]
      simp only [List.mem_eraseDups]

/-- Every key is kept with its last value. -/
theorem mem_putAll {key : String} {value : α} {members : List (String × α)} :
    (key, value) ∈ putAll members ↔ lastValue? key members = some value := by
  induction members using List.reverseRecOn with
  | nil => simp [putAll, lastValue?]
  | append_singleton members m ih =>
      have hnodup : ((putAll members).map (·.1)).Nodup := keys_putAll members ▸ nodup_eraseDups _
      obtain ⟨k, v⟩ := m
      rw [putAll_snoc, mem_put hnodup, lastValue?_snoc, ih]
      split
      · rw [Option.some.injEq]
      · rfl

end

/-! ## Plain trees -/

/-- The tree with one member for each key, in words: lists keep their items, objects keep each key
where it first stands, with what its last value comes to, and all else stays. -/
inductive PlainOf : Json → Json → Prop
  | scalar {j : Json} (notList : j.kind ≠ .list) (notObject : j.kind ≠ .object) : PlainOf j j
  | list {items values : List Json} (length : values.length = items.length)
      (each : ∀ (i : Nat) (item value : Json), items[i]? = some item → values[i]? = some value →
        PlainOf item value) :
      PlainOf (.list items) (.list values)
  | object {members kept : List (String × Json)}
      (keys : kept.map (·.1) = (members.map (·.1)).eraseDups)
      (each : ∀ key j value, lastValue? key members = some j → (key, value) ∈ kept →
        PlainOf j value) :
      PlainOf (.object members) (.object kept)

theorem mem_putAll_plainMembers {key : String} {value : Json} {members : List (String × Json)} :
    (key, value) ∈ putAll (plainMembers members) ↔
      ∃ j, lastValue? key members = some j ∧ j.plain = value := by
  rw [mem_putAll, plainMembers_eq_map, lastValue?_map, Option.map_eq_some_iff]

theorem keys_putAll_plainMembers (members : List (String × Json)) :
    (putAll (plainMembers members)).map (·.1) = (members.map (·.1)).eraseDups := by
  rw [keys_putAll, plainMembers_eq_map, List.map_map]
  rfl

theorem mem_of_lastValue? {α : Type} {key : String} {value : α} {members : List (String × α)}
    (h : lastValue? key members = some value) : (key, value) ∈ members := by
  obtain ⟨m, hm, rfl⟩ := Option.map_eq_some_iff.1 h
  obtain ⟨hmem, hkey⟩ := List.mem_filter.1 (List.mem_of_getLast? hm)
  rw [← of_decide_eq_true hkey]
  exact hmem

mutual
theorem plainOf_plain : (j : Json) → PlainOf j j.plain
  | .null => .scalar (by rintro ⟨⟩) (by rintro ⟨⟩)
  | .bool _ => .scalar (by rintro ⟨⟩) (by rintro ⟨⟩)
  | .number _ => .scalar (by rintro ⟨⟩) (by rintro ⟨⟩)
  | .string _ => .scalar (by rintro ⟨⟩) (by rintro ⟨⟩)
  | .list items => by
      rw [plain, plainItems_eq_map]
      refine .list (List.length_map _) fun i item value hitem hvalue => ?_
      rw [List.getElem?_map, hitem, Option.map_some, Option.some.injEq] at hvalue
      exact hvalue ▸ plainOf_items items item (List.mem_of_getElem? hitem)
  | .object members => by
      rw [plain]
      refine .object (keys_putAll_plainMembers members) fun key j value hlast hmem => ?_
      obtain ⟨j', hlast', rfl⟩ := mem_putAll_plainMembers.1 hmem
      rw [hlast, Option.some.injEq] at hlast'
      exact hlast' ▸ plainOf_members members _ (mem_of_lastValue? hlast)

theorem plainOf_items : (items : List Json) → ∀ j ∈ items, PlainOf j j.plain
  | [] => List.forall_mem_nil _
  | j :: rest => List.forall_mem_cons.2 ⟨plainOf_plain j, plainOf_items rest⟩

theorem plainOf_members : (members : List (String × Json)) → ∀ m ∈ members, PlainOf m.2 m.2.plain
  | [] => List.forall_mem_nil _
  | (_, j) :: rest => List.forall_mem_cons.2 ⟨plainOf_plain j, plainOf_members rest⟩
end

/-- Members with the same keys, all different, are the same if one has every member of the
other. -/
theorem eq_of_keys_eq {α : Type} {members members' : List (String × α)}
    (hkeys : members.map (·.1) = members'.map (·.1)) (hnodup : (members.map (·.1)).Nodup)
    (h : ∀ m ∈ members, m ∈ members') : members = members' := by
  induction members generalizing members' with
  | nil => exact (List.map_eq_nil_iff.1 hkeys.symm).symm
  | cons m rest ih =>
      cases members' with
      | nil => cases hkeys
      | cons m' rest' =>
          obtain ⟨hm, hrest⟩ := List.cons.inj hkeys
          obtain ⟨hfirst, hothers⟩ := List.nodup_cons.1 hnodup
          obtain ⟨hmem, hmems⟩ := List.forall_mem_cons.1 h
          have heq : m = m' := (List.mem_cons.1 hmem).resolve_right fun hlater =>
            hfirst (hrest ▸ List.mem_map_of_mem hlater)
          have hlater : ∀ x ∈ rest, x ∈ rest' := fun x hx =>
            (List.mem_cons.1 (hmems x hx)).resolve_left fun hx' =>
              hfirst (List.mem_map.2 ⟨x, hx, hx' ▸ hm.symm⟩)
          rw [heq, ih hrest hothers hlater]

theorem PlainOf.eq_plain {j value : Json} (h : PlainOf j value) : value = j.plain := by
  induction h with
  | @scalar j notList notObject =>
      cases j with
      | list => exact absurd rfl notList
      | object => exact absurd rfl notObject
      | null | bool | number | string => rfl
  | @list items values length _ ih =>
      rw [plain, plainItems_eq_map]
      congr 1
      refine List.ext_getElem (by rw [length, List.length_map]) fun i hvalue hplain => ?_
      rw [List.length_map] at hplain
      rw [List.getElem_map]
      exact ih i _ _ (List.getElem?_eq_getElem hplain) (List.getElem?_eq_getElem hvalue)
  | @object members kept keys _ ih =>
      rw [plain]
      congr 1
      refine eq_of_keys_eq (keys.trans (keys_putAll_plainMembers members).symm)
        (keys ▸ nodup_eraseDups _) fun m hm => ?_
      have hkey : m.1 ∈ members.map (·.1) :=
        List.mem_eraseDups.1 (keys ▸ List.mem_map_of_mem hm)
      obtain ⟨j, hlast⟩ := isSome_lastValue? hkey
      exact mem_putAll_plainMembers.2 ⟨j, hlast, (ih _ _ _ hlast hm).symm⟩

theorem plainOf_iff {j value : Json} : PlainOf j value ↔ value = j.plain :=
  ⟨PlainOf.eq_plain, fun h => h ▸ plainOf_plain j⟩

end ResourceAudit.Json
