/-!
# Dictionaries

A finite map from texts whose entries stand in the order of their keys, by code point. Each key
has one entry, so two dictionaries with the same look-ups are equal.
-/

namespace ResourceAudit

/-- Entries in strictly increasing order of their keys. -/
structure Dictionary (α : Type) where
  entries : List (String × α)
  sorted : entries.Pairwise fun a b => a.1 < b.1
deriving DecidableEq, Repr

namespace Dictionary

variable {α : Type}

instance [BEq α] : BEq (Dictionary α) := ⟨fun a b => a.entries == b.entries⟩

def empty : Dictionary α := ⟨[], .nil⟩

instance : Inhabited (Dictionary α) := ⟨empty⟩

def get? (d : Dictionary α) (key : String) : Option α :=
  (d.entries.find? fun e => e.1 = key).map (·.2)

def keys (d : Dictionary α) : List String := d.entries.map (·.1)

def isEmpty (d : Dictionary α) : Bool := d.entries.isEmpty

/-! ## Insertion -/

/-- Puts an entry at its place, instead of one with its key. -/
def insertEntry (key : String) (value : α) : List (String × α) → List (String × α)
  | [] => [(key, value)]
  | e :: rest =>
    if key < e.1 then (key, value) :: e :: rest
    else if e.1 = key then (key, value) :: rest
    else e :: insertEntry key value rest

theorem fst_of_mem_insertEntry {key : String} {value : α} {es : List (String × α)}
    {e : String × α} (h : e ∈ insertEntry key value es) : e.1 = key ∨ e ∈ es := by
  induction es with
  | nil => simp [insertEntry] at h; simp [h]
  | cons x rest ih =>
    unfold insertEntry at h
    split at h
    · rcases List.mem_cons.1 h with rfl | h
      · exact Or.inl rfl
      · exact Or.inr h
    · split at h
      · rcases List.mem_cons.1 h with rfl | h
        · exact Or.inl rfl
        · exact Or.inr (List.mem_cons_of_mem _ h)
      · rcases List.mem_cons.1 h with rfl | h
        · exact Or.inr List.mem_cons_self
        · exact (ih h).imp id (List.mem_cons_of_mem _)

theorem insertEntry_pairwise (key : String) (value : α) {es : List (String × α)}
    (h : es.Pairwise fun a b => a.1 < b.1) :
    (insertEntry key value es).Pairwise fun a b => a.1 < b.1 := by
  induction es with
  | nil => exact List.pairwise_singleton _ _
  | cons x rest ih =>
    obtain ⟨hx, hrest⟩ := List.pairwise_cons.1 h
    unfold insertEntry
    split
    · rename_i hlt
      refine List.pairwise_cons.2 ⟨fun e he => ?_, h⟩
      rcases List.mem_cons.1 he with rfl | he
      · exact hlt
      · exact String.lt_trans hlt (hx e he)
    · rename_i hlt
      split
      · rename_i heq
        exact List.pairwise_cons.2 ⟨fun e he => heq ▸ hx e he, hrest⟩
      · rename_i hne
        have hxk : x.1 < key := Std.lt_of_le_of_ne (String.not_lt.1 hlt) hne
        refine List.pairwise_cons.2 ⟨fun e he => ?_, ih hrest⟩
        rcases fst_of_mem_insertEntry he with he | he
        · exact he ▸ hxk
        · exact hx e he

def insert (d : Dictionary α) (key : String) (value : α) : Dictionary α :=
  ⟨insertEntry key value d.entries, insertEntry_pairwise key value d.sorted⟩

/-- Changes the value under a key, or sets one where there is none. -/
def alter (d : Dictionary α) (key : String) (f : Option α → α) : Dictionary α :=
  d.insert key (f (d.get? key))

/-- The dictionary of a list of entries; the last one of a key counts. -/
def ofList (es : List (String × α)) : Dictionary α :=
  es.foldl (fun d e => d.insert e.1 e.2) empty

end Dictionary

end ResourceAudit
