import ResourceAudit.Configuration.Document
import ResourceAudit.Proofs.Occurrence

/-!
# Rows of a ledger

Whatever the order and the number of declarations, a ledger has one row for each pair that was
declared, in the order of first declaration, and the row has a body exactly if there was one
declaration of the pair (`rows_ofDeclarations`).
-/

namespace ResourceAudit

namespace Ledger

/-! ## Entering one declaration -/

/-- The index leads to the row of a pair and to no other. -/
theorem key_getElem?_of_lookup {l : Ledger} {key : String × String} {place i : Nat} {row : Row}
    (h : l.places.lookup key = some place) (hrow : l.rows[i]? = some row) :
    row.key = key ↔ place = i := by
  have hi : (l.rows.map Row.key)[i]? = some row.key := by rw [List.getElem?_map, hrow]; rfl
  constructor
  · rintro rfl
    have hlookup := (l.agree _ i).2 hi
    rw [h] at hlookup
    exact Option.some.inj hlookup
  · rintro rfl
    have hkey := (l.agree _ _).1 h
    rw [hi] at hkey
    exact Option.some.inj hkey

theorem lookup_eq_none_iff (l : Ledger) (key : String × String) :
    l.places.lookup key = none ↔ key ∉ l.rows.map Row.key := by
  constructor
  · intro h hmem
    obtain ⟨place, hplace⟩ := List.mem_iff_getElem?.1 hmem
    rw [(l.agree key place).2 hplace] at h
    cases h
  · intro h
    cases hlookup : l.places.lookup key with
    | none => rfl
    | some place =>
        exact absurd (List.mem_iff_getElem?.2 ⟨place, (l.agree key place).1 hlookup⟩) h

/-- A new pair gets a row behind the others; another declaration of a pair spoils its row. -/
theorem rows_enter (l : Ledger) (d : Declaration) :
    (l.enter d).rows =
      if d.key ∈ l.rows.map Row.key then
        l.rows.map fun row => if row.key = d.key then row.spoiled else row
      else l.rows ++ [.first d] := by
  unfold enter
  split
  · rename_i place hplace
    have hmem : d.key ∈ l.rows.map Row.key :=
      List.mem_iff_getElem?.2 ⟨place, (l.agree _ _).1 hplace⟩
    rw [if_pos hmem]
    apply List.ext_getElem?
    intro i
    rw [List.getElem?_modify, List.getElem?_map]
    cases hrow : l.rows[i]? with
    | none => simp
    | some row =>
        simp only [Option.map_some, key_getElem?_of_lookup hplace hrow]
        by_cases hi : place = i <;> simp [hi]
  · rename_i hplace
    rw [if_neg ((l.lookup_eq_none_iff d.key).1 hplace)]

/-! ## Entering many -/

/-- The body of a pair, if exactly one declaration gives it. -/
def soleBody (ds : List Declaration) (key : String × String) : Option Json :=
  match ds.filter (·.key = key) with
  | [d] => some d.body
  | _ => none

theorem count_key_eq_length_filter (ds : List Declaration) (key : String × String) :
    (ds.map Declaration.key).count key = (ds.filter (·.key = key)).length := by
  rw [List.count_eq_countP, List.countP_map, List.countP_eq_length_filter]
  congr 2
  funext d
  rw [Bool.eq_iff_iff]
  simp

theorem soleBody_of_count_eq_one {ds : List Declaration} {d : Declaration} (hd : d ∈ ds)
    (hsole : (ds.map Declaration.key).count d.key = 1) : soleBody ds d.key = some d.body := by
  rw [count_key_eq_length_filter] at hsole
  obtain ⟨e, hfilter⟩ := List.length_eq_one_iff.1 hsole
  have hmem : d ∈ ds.filter (·.key = d.key) := List.mem_filter.2 ⟨hd, by simp⟩
  rw [hfilter, List.mem_singleton] at hmem
  rw [soleBody, hfilter, hmem]

theorem soleBody_of_one_lt_count {ds : List Declaration} {key : String × String}
    (h : 1 < (ds.map Declaration.key).count key) : soleBody ds key = none := by
  rw [count_key_eq_length_filter] at h
  unfold soleBody
  split
  · rename_i d hfilter
    rw [hfilter] at h
    exact absurd h (by simp)
  · rfl

/-- The row of a pair. -/
def rowOf (ds : List Declaration) (key : String × String) : Row :=
  ⟨key.1, key.2, soleBody ds key⟩

theorem rowOf_snoc_of_ne {ds : List Declaration} {d : Declaration} {key : String × String}
    (h : key ≠ d.key) : rowOf (ds ++ [d]) key = rowOf ds key := by
  simp [rowOf, soleBody, List.filter_append, Ne.symm h]

theorem rowOf_snoc_of_mem {ds : List Declaration} {d : Declaration}
    (h : d.key ∈ ds.map Declaration.key) :
    rowOf (ds ++ [d]) d.key = (rowOf ds d.key).spoiled := by
  have hne : ds.filter (·.key = d.key) ≠ [] := by
    obtain ⟨e, he, hkey⟩ := List.mem_map.1 h
    exact List.ne_nil_of_mem (List.mem_filter.2 ⟨he, by simpa using hkey⟩)
  obtain ⟨e, rest, hfilter⟩ := List.exists_cons_of_ne_nil hne
  simp [rowOf, soleBody, List.filter_append, hfilter, Row.spoiled]

theorem rowOf_snoc_of_not_mem {ds : List Declaration} {d : Declaration}
    (h : d.key ∉ ds.map Declaration.key) : rowOf (ds ++ [d]) d.key = .first d := by
  have hnil : ds.filter (·.key = d.key) = [] := by
    rw [List.filter_eq_nil_iff]
    intro e he hkey
    exact h (List.mem_map.2 ⟨e, he, by simpa using hkey⟩)
  simp only [rowOf, soleBody, List.filter_append, hnil]
  simp [Row.first, Declaration.key]

theorem map_key_rowOf (ds : List Declaration) (keys : List (String × String)) :
    (keys.map (rowOf ds)).map Row.key = keys := by
  rw [List.map_map]
  exact List.map_id _

theorem ofDeclarations_snoc (ds : List Declaration) (d : Declaration) :
    ofDeclarations (ds ++ [d]) = (ofDeclarations ds).enter d := by
  simp [ofDeclarations, List.foldl_append]

/-- One row for each pair, where it first stands, with the body of a sole declaration. -/
theorem rows_ofDeclarations (ds : List Declaration) :
    (ofDeclarations ds).rows = (ds.map Declaration.key).eraseDups.map (rowOf ds) := by
  induction ds using List.reverseRecOn with
  | nil => rfl
  | append_singleton ds d ih =>
      rw [ofDeclarations_snoc, rows_enter, ih, map_key_rowOf, List.map_append, List.map_singleton,
        eraseDups_snoc]
      simp only [List.mem_eraseDups]
      by_cases hmem : d.key ∈ ds.map Declaration.key
      · rw [if_pos hmem, if_pos hmem, List.map_map]
        apply List.map_congr_left
        intro key _
        by_cases hkey : key = d.key
        · subst hkey
          have hrow : (rowOf ds d.key).key = d.key := rfl
          rw [Function.comp_apply, if_pos hrow, rowOf_snoc_of_mem hmem]
        · have hrow : (rowOf ds key).key ≠ d.key := hkey
          simp [rowOf_snoc_of_ne hkey, hrow]
      · rw [if_neg hmem, if_neg hmem, List.map_append, List.map_singleton,
          rowOf_snoc_of_not_mem hmem]
        congr 1
        apply List.map_congr_left
        intro key hkey
        rw [rowOf_snoc_of_ne]
        rintro rfl
        exact hmem (List.mem_eraseDups.1 hkey)

end Ledger

end ResourceAudit
