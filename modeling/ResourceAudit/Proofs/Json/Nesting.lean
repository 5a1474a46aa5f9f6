import ResourceAudit.Proofs.Accepted
import ResourceAudit.Proofs.Json.Writer

/-!
# How deep a text may nest

The limit of a reader decides what it refuses and nothing else: a text is read as a tree exactly if
a reader with some limit takes it for the tree, and the tree nests within the limit of documents
(`readTree_eq_ok_iff`).
-/

namespace ResourceAudit.Json

/-! ## Nesting -/

/-- Lists and objects nest at most so deep. -/
inductive NestsWithin : Nat → Json → Prop
  | null {depth : Nat} : NestsWithin depth .null
  | bool {depth : Nat} (b : Bool) : NestsWithin depth (.bool b)
  | number {depth : Nat} (n : Number) : NestsWithin depth (.number n)
  | string {depth : Nat} (s : String) : NestsWithin depth (.string s)
  | list {depth : Nat} {items : List Json} (h : ∀ j ∈ items, NestsWithin depth j) :
      NestsWithin (depth + 1) (.list items)
  | object {depth : Nat} {members : List (String × Json)}
      (h : ∀ m ∈ members, NestsWithin depth m.2) : NestsWithin (depth + 1) (.object members)

theorem Legible.nestsWithin {depth : Nat} {j : Json} (h : Legible depth j) :
    NestsWithin depth j := by
  induction h with
  | null => exact .null
  | bool b => exact .bool b
  | integer _ => exact .number _
  | string s => exact .string s
  | list _ ih => exact .list ih
  | object _ ih => exact .object ih

theorem NestsWithin.mono {depth depth' : Nat} {j : Json} (h : NestsWithin depth j)
    (hle : depth ≤ depth') : NestsWithin depth' j := by
  induction h generalizing depth' with
  | null => exact .null
  | bool b => exact .bool b
  | number n => exact .number n
  | string s => exact .string s
  | list _ ih =>
      obtain ⟨deeper, rfl⟩ : ∃ deeper, depth' = deeper + 1 := ⟨depth' - 1, by omega⟩
      exact .list fun j hj => ih j hj (by omega)
  | object _ ih =>
      obtain ⟨deeper, rfl⟩ : ∃ deeper, depth' = deeper + 1 := ⟨depth' - 1, by omega⟩
      exact .object fun m hm => ih m hm (by omega)

namespace Reader

/-! ## Items and members -/

variable {α : Type} {r r' : Reader α}

/-- The second reader takes these values as the first does. -/
def Follows (r r' : Reader α) (P : α → Prop) : Prop :=
  ∀ {s rest : List Char} {a : α}, P a → r.read s = .ok (a, rest) → r'.read s = .ok (a, rest)

/-- What was taken before stays, and what is added was read. -/
theorem mem_of_items_eq_ok {done as : List α} {s rest : List Char}
    (h : items r done s = .ok (as, rest)) :
    (∀ a ∈ done, a ∈ as) ∧ ∀ a ∈ as, a ∈ done ∨ ∃ s t, r.read s = .ok (a, t) := by
  fun_induction items r done s with
  | case1 | case2 | case4 | case5 | case7 => cases h
  | case3 done s a t ht u hb =>
      cases h
      refine ⟨fun x hx => by simp [hx], fun x hx => ?_⟩
      rcases List.mem_cons.1 (List.mem_reverse.1 hx) with rfl | hx
      · exact .inr ⟨s, t, ht⟩
      · exact .inl hx
  | case6 done s a t ht u hb hc hc' ih =>
      obtain ⟨hkept, hread⟩ := ih h
      refine ⟨fun x hx => hkept x (List.mem_cons_of_mem _ hx), fun x hx => ?_⟩
      rcases hread x hx with hx | hx
      · rcases List.mem_cons.1 hx with rfl | hx
        · exact .inr ⟨s, t, ht⟩
        · exact .inl hx
      · exact .inr hx

theorem items_of_follows {P : α → Prop} (hr : Follows r r' P) {done as : List α}
    {s rest : List Char} (h : items r done s = .ok (as, rest)) (hP : ∀ a ∈ as, P a) :
    items r' done s = .ok (as, rest) := by
  fun_induction items r done s with
  | case1 | case2 | case4 | case5 | case7 => cases h
  | case3 done s a t ht u hb =>
      cases h
      rw [items_eq, hr (hP a (by simp)) ht]
      simp [hb]
  | case6 done s a t ht u hb hc hc' ih =>
      have ha : a ∈ as := (mem_of_items_eq_ok h).1 a List.mem_cons_self
      rw [items_eq, hr (hP a ha) ht]
      simp only [hb]
      exact ih h

theorem list_of_follows {P : α → Prop} (hr : Follows r r' P) {as : List α} {s rest : List Char}
    (h : list r s = .ok (as, rest)) (hP : ∀ a ∈ as, P a) : list r' s = .ok (as, rest) := by
  unfold list at h ⊢
  split at h
  · cases h
  · exact h
  · exact items_of_follows hr h hP

theorem read_of_mem_list {as : List α} {s rest : List Char} (h : list r s = .ok (as, rest)) :
    ∀ a ∈ as, ∃ s t, r.read s = .ok (a, t) := by
  unfold list at h
  split at h
  · cases h
  · cases h
    exact fun _ hmem => absurd hmem List.not_mem_nil
  · intro a ha
    exact ((mem_of_items_eq_ok h).2 a ha).resolve_left List.not_mem_nil

theorem member_eq_ok {m : String × α} {s rest : List Char} (h : member r s = .ok (m, rest)) :
    ∃ t, r.read t = .ok (m.2, rest) ∧
      ∀ r' : Reader α, r'.read t = .ok (m.2, rest) → member r' s = .ok (m, rest) := by
  unfold member at h
  split at h
  · cases h
  · rename_i key t hkey
    split at h
    · cases h
    · rename_i u hu
      split at h
      · cases h
      · rename_i a v ha
        cases h
        refine ⟨u, ha, fun r' hr' => ?_⟩
        simp only [member, hkey, hu, hr']
    · cases h

theorem mem_of_members_eq_ok {done ms : List (String × α)} {s rest : List Char}
    (h : members r done s = .ok (ms, rest)) :
    (∀ m ∈ done, m ∈ ms) ∧ ∀ m ∈ ms, m ∈ done ∨ ∃ s t, r.read s = .ok (m.2, t) := by
  fun_induction members r done s with
  | case1 | case2 | case4 | case6 | case7 | case8 => cases h
  | case3 done s m t hm u hb =>
      cases h
      obtain ⟨v, hv, _⟩ := member_eq_ok hm
      refine ⟨fun x hx => by simp [hx], fun x hx => ?_⟩
      rcases List.mem_cons.1 (List.mem_reverse.1 hx) with rfl | hx
      · exact .inr ⟨v, t, hv⟩
      · exact .inl hx
  | case5 done s m t hm u hb v hc ih =>
      obtain ⟨w, hw, _⟩ := member_eq_ok hm
      obtain ⟨hkept, hread⟩ := ih h
      refine ⟨fun x hx => hkept x (List.mem_cons_of_mem _ hx), fun x hx => ?_⟩
      rcases hread x hx with hx | hx
      · rcases List.mem_cons.1 hx with rfl | hx
        · exact .inr ⟨w, t, hw⟩
        · exact .inl hx
      · exact .inr hx

theorem members_of_follows {P : α → Prop} (hr : Follows r r' P) {done ms : List (String × α)}
    {s rest : List Char} (h : members r done s = .ok (ms, rest)) (hP : ∀ m ∈ ms, P m.2) :
    members r' done s = .ok (ms, rest) := by
  fun_induction members r done s with
  | case1 | case2 | case4 | case6 | case7 | case8 => cases h
  | case3 done s m t hm u hb =>
      cases h
      obtain ⟨v, hv, hmember⟩ := member_eq_ok hm
      rw [members_eq, hmember r' (hr (hP m (by simp)) hv)]
      simp [hb]
  | case5 done s m t hm u hb v hc ih =>
      obtain ⟨w, hw, hmember⟩ := member_eq_ok hm
      have hmem : m ∈ ms := (mem_of_members_eq_ok h).1 m List.mem_cons_self
      rw [members_eq, hmember r' (hr (hP m hmem) hw)]
      simp only [hb, hc]
      exact ih h

theorem object_of_follows {P : α → Prop} (hr : Follows r r' P) {ms : List (String × α)}
    {s rest : List Char} (h : object r s = .ok (ms, rest)) (hP : ∀ m ∈ ms, P m.2) :
    object r' s = .ok (ms, rest) := by
  unfold object at h ⊢
  split at h
  · cases h
  · exact h
  · exact members_of_follows hr h hP
  · cases h

theorem read_of_mem_object {ms : List (String × α)} {s rest : List Char}
    (h : object r s = .ok (ms, rest)) : ∀ m ∈ ms, ∃ s t, r.read s = .ok (m.2, t) := by
  unfold object at h
  split at h
  · cases h
  · cases h
    exact fun _ hmem => absurd hmem List.not_mem_nil
  · intro m hm
    exact ((mem_of_members_eq_ok h).2 m hm).resolve_left List.not_mem_nil
  · cases h

/-! ## Values -/

/-- How a value is taken: whatever reads what is inside, a list, or an object. -/
theorem token_eq_ok {inner? : Option (Reader Json)} {j : Json} {s rest : List Char}
    (h : token .tree inner? s = .ok (j, rest)) :
    ((∀ depth, NestsWithin depth j) ∧ ∀ other?, token .tree other? s = .ok (j, rest)) ∨
    (∃ inner t items, inner? = some inner ∧ s = '[' :: t ∧ list inner t = .ok (items, rest) ∧
      j = .list items) ∨
    ∃ inner t members, inner? = some inner ∧ s = '{' :: t ∧ object inner t = .ok (members, rest) ∧
      j = .object members := by
  unfold token at h
  split at h
  · cases h
  · obtain ⟨t, ht, heq⟩ := map_eq_ok.1 h
    cases heq
    exact .inl ⟨fun _ => .null, fun _ => by simp only [token]; exact h⟩
  · obtain ⟨t, ht, heq⟩ := map_eq_ok.1 h
    cases heq
    exact .inl ⟨fun _ => .bool _, fun _ => by simp only [token]; exact h⟩
  · obtain ⟨t, ht, heq⟩ := map_eq_ok.1 h
    cases heq
    exact .inl ⟨fun _ => .bool _, fun _ => by simp only [token]; exact h⟩
  · obtain ⟨t, ht, heq⟩ := map_eq_ok.1 h
    cases heq
    exact .inl ⟨fun _ => .string _, fun _ => by simp only [token]; exact h⟩
  · split at h
    · cases h
    · rename_i t _ inner
      obtain ⟨⟨items, u⟩, hitems, heq⟩ := map_eq_ok.1 h
      cases heq
      exact .inr (.inl ⟨inner, t, items, rfl, rfl, hitems, rfl⟩)
  · split at h
    · cases h
    · rename_i t _ inner
      obtain ⟨⟨members, u⟩, hmembers, heq⟩ := map_eq_ok.1 h
      cases heq
      exact .inr (.inr ⟨inner, t, members, rfl, rfl, hmembers, rfl⟩)
  · rename_i c t hn ht hf hq hl ho
    split at h
    · rename_i hnumeral
      obtain ⟨⟨n, u⟩, hnum, heq⟩ := map_eq_ok.1 h
      cases heq
      refine .inl ⟨fun _ => .number _, fun _ => ?_⟩
      rw [token, if_pos hnumeral]
      · exact h
      all_goals assumption
    · cases h

theorem value_read (depth : Nat) (s : List Char) :
    ∃ inner?, (∀ inner, inner? = some inner ↔ ∃ below, depth = below + 1 ∧
      inner = value .tree below) ∧
      (value .tree depth).read s = token .tree inner? (skipSpace s) := by
  cases depth with
  | zero => exact ⟨none, by simp, rfl⟩
  | succ below => exact ⟨some (value .tree below), by simp [eq_comm], rfl⟩

/-- What a reader of values takes is a scalar, whatever the limit, or it uses up one level. -/
theorem value_eq_ok {depth : Nat} {j : Json} {s rest : List Char}
    (h : (value .tree depth).read s = .ok (j, rest)) :
    (∀ depth', NestsWithin depth' j ∧ (value .tree depth').read s = .ok (j, rest)) ∨
    (∃ below t items, depth = below + 1 ∧ skipSpace s = '[' :: t ∧
      list (value .tree below) t = .ok (items, rest) ∧ j = .list items) ∨
    ∃ below t members, depth = below + 1 ∧ skipSpace s = '{' :: t ∧
      object (value .tree below) t = .ok (members, rest) ∧ j = .object members := by
  obtain ⟨inner?, hinner?, hread⟩ := value_read depth s
  rw [hread] at h
  rcases token_eq_ok h with ⟨hnests, hother⟩ | ⟨inner, t, items, hinner, ht, hlist, hj⟩ |
    ⟨inner, t, members, hinner, ht, hobject, hj⟩
  · refine .inl fun depth' => ⟨hnests depth', ?_⟩
    obtain ⟨other?, _, hread'⟩ := value_read depth' s
    rw [hread', hother]
  · obtain ⟨below, hdepth, rfl⟩ := (hinner? inner).1 hinner
    exact .inr (.inl ⟨below, t, items, hdepth, ht, hlist, hj⟩)
  · obtain ⟨below, hdepth, rfl⟩ := (hinner? inner).1 hinner
    exact .inr (.inr ⟨below, t, members, hdepth, ht, hobject, hj⟩)

theorem nestsWithin_of_value {depth : Nat} {j : Json} {s rest : List Char}
    (h : (value .tree depth).read s = .ok (j, rest)) : NestsWithin depth j := by
  induction depth generalizing j s rest with
  | zero =>
      rcases value_eq_ok h with hscalar | ⟨_, _, _, hdepth, _⟩ | ⟨_, _, _, hdepth, _⟩
      · exact (hscalar 0).1
      · cases hdepth
      · cases hdepth
  | succ depth ih =>
      rcases value_eq_ok h with hscalar | ⟨_, _, _, hdepth, _, hlist, rfl⟩ |
        ⟨_, _, _, hdepth, _, hobject, rfl⟩
      · exact (hscalar (depth + 1)).1
      · cases hdepth
        refine .list fun j hj => ?_
        obtain ⟨_, _, hread⟩ := read_of_mem_list hlist j hj
        exact ih hread
      · cases hdepth
        refine .object fun m hm => ?_
        obtain ⟨_, _, hread⟩ := read_of_mem_object hobject m hm
        exact ih hread

/-- A reader takes what one with another limit takes, as long as it nests within its own. -/
theorem value_follows (depth depth' : Nat) :
    Follows (value .tree depth) (value .tree depth') (NestsWithin depth') := by
  intro s rest j hj h
  -- The parts of a list or an object are read with one level less on both sides.
  induction depth generalizing depth' j s rest with
  | zero =>
      rcases value_eq_ok h with hscalar | ⟨_, _, _, hdepth, _⟩ | ⟨_, _, _, hdepth, _⟩
      · exact (hscalar depth').2
      · cases hdepth
      · cases hdepth
  | succ depth ih =>
      rcases value_eq_ok h with hscalar | ⟨below, t, items, hdepth, ht, hlist, rfl⟩ |
        ⟨below, t, members, hdepth, ht, hobject, rfl⟩
      · exact (hscalar depth').2
      · cases hdepth
        cases hj with
        | @list below' _ hitems =>
            have hlist' : list (value .tree below') t = .ok (items, rest) :=
              list_of_follows (fun ha hr => ih below' ha hr) hlist hitems
            simp only [value, valueWithin, ht, token, hlist']
            rfl
      · cases hdepth
        cases hj with
        | @object below' _ hmembers =>
            have hobject' : object (value .tree below') t = .ok (members, rest) :=
              object_of_follows (fun ha hr => ih below' ha hr) hobject hmembers
            simp only [value, valueWithin, ht, token, hobject']
            rfl

end Reader

/-! ## Texts -/

/-- The text is one of the tree: a reader with some limit takes it, blanks behind it or not. -/
def Spells (text : String) (j : Json) : Prop :=
  ∃ depth rest, (Reader.value .tree depth).read text.toList = .ok (j, rest) ∧
    Reader.skipSpace rest = []

theorem Legible.spells {depth : Nat} {j : Json} (h : Legible depth j) (sp : Spacing) :
    Spells (String.ofList (j.write sp 0)) j := by
  have hread : (Reader.value .tree depth).read ([] ++ (j.write sp 0 ++ [])) = .ok (j, []) :=
    Reader.takes_value h sp 0 rfl nofun
  rw [List.nil_append, List.append_nil] at hread
  exact ⟨depth, [], by rwa [String.toList_ofList], rfl⟩

theorem Spells.unique {text : String} {j j' : Json} (h : Spells text j) (h' : Spells text j') :
    j = j' := by
  obtain ⟨depth, rest, hread, _⟩ := h
  obtain ⟨depth', rest', hread', _⟩ := h'
  have hdeep : (Reader.value .tree (max depth depth')).read text.toList = .ok (j, rest) :=
    Reader.value_follows _ _ ((Reader.nestsWithin_of_value hread).mono (Nat.le_max_left _ _)) hread
  have hdeep' : (Reader.value .tree (max depth depth')).read text.toList = .ok (j', rest') :=
    Reader.value_follows _ _ ((Reader.nestsWithin_of_value hread').mono (Nat.le_max_right _ _)) hread'
  rw [hdeep] at hdeep'
  cases hdeep'
  rfl

theorem readTree_eq_ok {text : String} {j : Json} (h : readTree text = .ok j) :
    ∃ rest, (Reader.value .tree Reader.deepest).read text.toList = .ok (j, rest) ∧
      Reader.skipSpace rest = [] := by
  unfold readTree readWith at h
  split at h
  · rename_i a hdocument
    cases h
    unfold Reader.document at hdocument
    split at hdocument
    · cases hdocument
    · rename_i t hread
      split at hdocument
      · rename_i hrest
        cases hdocument
        exact ⟨t, hread, hrest⟩
      · cases hdocument
  · cases h

/-- The texts of a tree are read exactly if it nests within the limit. -/
theorem readTree_eq_ok_iff {text : String} {j : Json} :
    readTree text = .ok j ↔ Spells text j ∧ NestsWithin Reader.deepest j := by
  constructor
  · intro h
    obtain ⟨rest, hread, hrest⟩ := readTree_eq_ok h
    exact ⟨⟨Reader.deepest, rest, hread, hrest⟩, Reader.nestsWithin_of_value hread⟩
  · rintro ⟨⟨depth, rest, hread, hrest⟩, hnests⟩
    have hdeepest := Reader.value_follows depth Reader.deepest hnests hread
    simp only [readTree, readWith, Reader.document, hdeepest, hrest]

/-- A text of a tree that nests deeper is refused. -/
theorem Spells.readTree_eq_error {text : String} {j : Json} (h : Spells text j)
    (hdeep : ¬ NestsWithin Reader.deepest j) : ∃ refusal, readTree text = .error refusal := by
  cases hread : readTree text with
  | error refusal => exact ⟨refusal, rfl⟩
  | ok j' =>
      obtain ⟨hspells, hnests⟩ := readTree_eq_ok_iff.1 hread
      exact absurd (h.unique hspells ▸ hnests) hdeep

/-- Lists in lists around a null. -/
def nested : Nat → Json
  | 0 => .null
  | n + 1 => .list [nested n]

theorem le_of_nestsWithin_nested {depth n : Nat} (h : NestsWithin depth (nested n)) :
    n ≤ depth := by
  induction n generalizing depth with
  | zero => exact Nat.zero_le depth
  | succ n ih =>
      cases h with
      | list h => exact Nat.succ_le_succ (ih (h _ List.mem_cons_self))

end ResourceAudit.Json
