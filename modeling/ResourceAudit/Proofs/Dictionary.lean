import ResourceAudit.Dictionary
import Mathlib.Data.List.Nodup

/-!
# Look-ups in a dictionary

A look-up finds exactly the entries (`get?_eq_some_iff`). An insertion changes the look-up of its
own key only, and a dictionary is known by its look-ups.
-/

namespace ResourceAudit

namespace Dictionary

variable {α : Type}

/-! ## Look-ups and entries -/

@[simp]
theorem get?_empty (key : String) : (empty : Dictionary α).get? key = none := rfl

/-- Entries with one key are one entry. -/
theorem eq_of_mem_of_fst_eq {es : List (String × α)} (h : es.Pairwise fun a b => a.1 < b.1)
    {a b : String × α} (ha : a ∈ es) (hb : b ∈ es) (hfst : a.1 = b.1) : a = b := by
  induction h with
  | nil => cases ha
  | cons hlt _ ih =>
      rcases List.mem_cons.1 ha with rfl | ha' <;> rcases List.mem_cons.1 hb with rfl | hb'
      · rfl
      · exact absurd (hfst ▸ hlt b hb') (String.lt_irrefl _)
      · exact absurd (hfst ▸ hlt a ha') (String.lt_irrefl _)
      · exact ih ha' hb'

theorem get?_eq_some_iff {d : Dictionary α} {key : String} {value : α} :
    d.get? key = some value ↔ (key, value) ∈ d.entries := by
  rw [get?, Option.map_eq_some_iff]
  constructor
  · rintro ⟨e, he, rfl⟩
    have hkey : e.1 = key := by simpa using List.find?_some he
    exact hkey ▸ List.mem_of_find?_eq_some he
  · intro hmem
    cases hfind : d.entries.find? fun e => e.1 = key with
    | none => simpa using List.find?_eq_none.1 hfind _ hmem
    | some e =>
        have hkey : e.1 = key := by simpa using List.find?_some hfind
        have he := List.mem_of_find?_eq_some hfind
        exact ⟨e, rfl, by rw [eq_of_mem_of_fst_eq d.sorted he hmem hkey]⟩

theorem ext_get? {d e : Dictionary α} (h : ∀ key, d.get? key = e.get? key) : d = e := by
  have hnodup (d : Dictionary α) : d.entries.Nodup :=
    d.sorted.imp fun {a b} hlt (heq : a = b) => String.lt_irrefl _ (heq ▸ hlt)
  have hperm : d.entries.Perm e.entries := by
    rw [List.perm_ext_iff_of_nodup (hnodup d) (hnodup e)]
    rintro ⟨key, value⟩
    rw [← get?_eq_some_iff, ← get?_eq_some_iff, h]
  have hentries : d.entries = e.entries :=
    hperm.eq_of_pairwise (fun a b _ _ hab hba => absurd hba (String.lt_asymm hab)) d.sorted e.sorted
  cases d
  cases e
  simp_all

/-! ## Insertion -/

theorem find?_insertEntry (key query : String) (value : α) (es : List (String × α)) :
    (insertEntry key value es).find? (fun e => e.1 = query) =
      if key = query then some (key, value) else es.find? (fun e => e.1 = query) := by
  induction es with
  | nil => by_cases hkey : key = query <;> simp [insertEntry, hkey]
  | cons e rest ih =>
      unfold insertEntry
      split
      · by_cases hkey : key = query <;> simp [List.find?_cons, hkey]
      · split
        · rename_i heq
          by_cases hkey : key = query <;> simp [hkey, heq]
        · rename_i hne
          rw [List.find?_cons, ih, List.find?_cons]
          by_cases hquery : e.1 = query
          · have hkey : key ≠ query := fun hkey => hne (hquery.trans hkey.symm)
            simp [hquery, hkey]
          · simp [hquery]

theorem get?_insert (d : Dictionary α) (key query : String) (value : α) :
    (d.insert key value).get? query = if key = query then some value else d.get? query := by
  rw [get?, insert, find?_insertEntry]
  split <;> rfl

theorem get?_foldl_insert_const (value : α) (keys : List String) (d : Dictionary α)
    (key : String) :
    ((keys.map fun k => (k, value)).foldl (fun d e => d.insert e.1 e.2) d).get? key =
      if key ∈ keys then some value else d.get? key := by
  induction keys generalizing d with
  | nil => simp
  | cons k rest ih =>
      rw [List.map_cons, List.foldl_cons, ih, get?_insert]
      by_cases hrest : key ∈ rest
      · simp [hrest]
      · by_cases hkey : k = key
        · simp [hkey]
        · simp [hrest, hkey, Ne.symm hkey]

/-! ## Entries in order -/

theorem insertEntry_of_lt {key : String} {value : α} {es : List (String × α)}
    (h : ∀ e ∈ es, e.1 < key) : insertEntry key value es = es ++ [(key, value)] := by
  induction es with
  | nil => rfl
  | cons e rest ih =>
      have he : e.1 < key := h e List.mem_cons_self
      rw [insertEntry, if_neg (String.lt_asymm he),
        if_neg (fun heq => String.lt_irrefl _ (heq ▸ he)),
        ih fun x hx => h x (List.mem_cons_of_mem _ hx), List.cons_append]

theorem entries_foldl_insert {d : Dictionary α} {es : List (String × α)}
    (h : (d.entries ++ es).Pairwise fun a b => a.1 < b.1) :
    (es.foldl (fun d e => d.insert e.1 e.2) d).entries = d.entries ++ es := by
  induction es generalizing d with
  | nil => exact (List.append_nil _).symm
  | cons e rest ih =>
      have hinsert : (d.insert e.1 e.2).entries = d.entries ++ [e] :=
        insertEntry_of_lt fun x hx => (List.pairwise_append.1 h).2.2 x hx e List.mem_cons_self
      rw [List.foldl_cons, ih (by rwa [hinsert, ← List.append_cons]), hinsert, ← List.append_cons]

theorem ofList_entries (d : Dictionary α) : ofList d.entries = d := by
  have hentries : (ofList d.entries).entries = d.entries := entries_foldl_insert d.sorted
  exact ext_get? fun key => by rw [get?, get?, hentries]

theorem nodup_keys (d : Dictionary α) : (d.entries.map (·.1)).Nodup :=
  List.pairwise_map.2 <|
    d.sorted.imp fun {a b} hlt (heq : a.1 = b.1) => String.lt_irrefl _ (heq ▸ hlt)

theorem mem_keys_iff {d : Dictionary α} {key : String} :
    key ∈ d.keys ↔ (d.get? key).isSome = true := by
  rw [keys, List.mem_map, Option.isSome_iff_exists]
  constructor
  · rintro ⟨⟨_, value⟩, hmem, rfl⟩
    exact ⟨value, get?_eq_some_iff.2 hmem⟩
  · rintro ⟨value, hvalue⟩
    exact ⟨(key, value), get?_eq_some_iff.1 hvalue, rfl⟩

theorem keys_eq_of_mem_iff {d : Dictionary α} {ks : List String} (hks : ks.Pairwise (· < ·))
    (h : ∀ key, key ∈ d.keys ↔ key ∈ ks) : d.keys = ks := by
  have hkeys : d.keys.Pairwise (· < ·) := List.pairwise_map.2 d.sorted
  have hnodup : ks.Nodup := hks.imp fun {a b} hlt (heq : a = b) => String.lt_irrefl _ (heq ▸ hlt)
  have hperm : d.keys.Perm ks := (List.perm_ext_iff_of_nodup d.nodup_keys hnodup).2 h
  exact hperm.eq_of_pairwise (fun a b _ _ hab hba => absurd hba (String.lt_asymm hab)) hkeys hks

end Dictionary

end ResourceAudit
