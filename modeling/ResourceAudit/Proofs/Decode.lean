import ResourceAudit.Decode
import ResourceAudit.Proofs.Dictionary
import ResourceAudit.Proofs.Timestamp
import ResourceAudit.Report

/-!
# Decoders and encodings

A decoder undoes an encoding where it gives every encoded value back. Sequences, dictionaries and
records inherit that from what they hold.
-/

namespace ResourceAudit.Decoder

/-- The decoder gives every encoded value back. -/
def Undoes {α : Type} (d : Decoder α) (encode : α → Json) : Prop := ∀ a, d (encode a) = .ok a

variable {α : Type} {d : Decoder α} {encode : α → Json}

/-! ## Scalars -/

theorem string_undoes : Undoes string .string := fun _ => rfl

theorem boolean_undoes : Undoes boolean .bool := fun _ => rfl

theorem word_undoes : Undoes word .ofWord := by
  intro w
  have hbound : 0 ≤ (w.toNat : Int) ∧ (w.toNat : Int) < UInt32.size := by
    have := w.toNat_lt
    exact ⟨by omega, by simp [UInt32.size]; omega⟩
  rw [Json.ofWord, Json.ofNat, word, if_pos hbound, Int.toNat_natCast, UInt32.ofNat_toNat]

theorem timestamp_undoes : Undoes timestamp fun t => .string t.toText := by
  intro t
  rw [timestamp, Timestamp.parse_toText]
  rfl

theorem tag_undoes {all : List α} {name : α → String} (hall : ∀ a, a ∈ all)
    (hname : ∀ a b, name a = name b → a = b) : Undoes (tag all name) fun a => .string (name a) := by
  intro a
  have hfind : all.find? (fun b => name b = name a) = some a := by
    cases hb : all.find? fun b => name b = name a with
    | none => simpa using List.find?_eq_none.1 hb a (hall a)
    | some b => rw [hname b a (by simpa using List.find?_some hb)]
  simp only [tag, hfind]

/-! ## Collections -/

theorem Undoes.sequence (h : Undoes d encode) :
    Undoes (sequence d) fun as => .list (as.map encode) := by
  intro as
  induction as with
  | nil => rfl
  | cons a as ih =>
      rw [Decoder.sequence] at ih
      rw [Decoder.sequence, List.map_cons, List.mapM_cons, h a, ih]
      rfl

theorem Undoes.dictionary (h : Undoes d encode) :
    Undoes (dictionary d) fun ds => .object (ds.entries.map fun e => (e.1, encode e.2)) := by
  intro ds
  have hentries : (ds.entries.map fun e => (e.1, encode e.2)).mapM
      (fun m => (d m.2).map fun a => (m.1, a)) = .ok ds.entries := by
    induction ds.entries with
    | nil => rfl
    | cons e es ih =>
        rw [List.map_cons, List.mapM_cons, h e.2, ih]
        rfl
  rw [Decoder.dictionary, hentries]
  exact congrArg Except.ok ds.ofList_entries

/-! ## Look-ups among members -/

theorem find?_append (key : String) (members more : List (String × Json)) :
    Json.find? key (members ++ more) = (Json.find? key members).or (Json.find? key more) := by
  induction members with
  | nil => rfl
  | cons m rest ih =>
      rw [List.cons_append, Json.find?, Json.find?, ih]
      split <;> rfl

theorem find?_optionalMember (key name : String) (o : Option α) :
    Json.find? key (Json.optionalMember name encode o) =
      if name = key then o.map encode else none := by
  cases o with
  | none => exact (ite_self none).symm
  | some a => rfl

theorem Undoes.required (h : Undoes d encode) {name : String} {members : List (String × Json)}
    (a : α) (hfind : Json.find? name members = some (encode a)) :
    required name d members = .ok a := by
  rw [Decoder.required, hfind]
  exact h a

theorem Undoes.defaulted (h : Undoes d encode) {name : String} {members : List (String × Json)}
    (default a : α) (hfind : Json.find? name members = some (encode a)) :
    defaulted name d default members = .ok a := by
  rw [Decoder.defaulted, hfind]
  exact h a

theorem defaulted_omitted (d : Decoder α) {name : String} {members : List (String × Json)}
    (default : α) (hfind : Json.find? name members = none) :
    defaulted name d default members = .ok default := by
  rw [Decoder.defaulted, hfind]

theorem defaulted_optionalMember {name : String} {members : List (String × Json)}
    (o : Option String) (hfind : Json.find? name members = none) :
    defaulted name (optional string) none (members ++ Json.optionalMember name .string o) =
      .ok o := by
  rw [Decoder.defaulted, find?_append, hfind, find?_optionalMember, if_pos rfl]
  cases o <;> rfl

/-! ## Records -/

/-- Values of fields under their names, in the order of the fields; fields may be left out. -/
inductive Fits : List Field → List (String × Json) → Prop
  | nil : Fits [] []
  | given {f : Field} {fs : List Field} {value : Json} {ms : List (String × Json)}
      (h : f.fault? value = none) (hrest : Fits fs ms) : Fits (f :: fs) ((f.name, value) :: ms)
  | omitted {f : Field} {fs : List Field} {ms : List (String × Json)} (hrest : Fits fs ms) :
      Fits (f :: fs) ms

theorem Undoes.fault? (h : Undoes d encode) (name : String) (a : α) :
    (Field.of name d).fault? (encode a) = none := by
  simp only [Field.of, h a]

theorem Fits.optionalMember (name : String) (o : Option String) :
    Fits [.of name (optional string)] (Json.optionalMember name .string o) := by
  cases o with
  | none => exact .omitted .nil
  | some s => exact .given rfl .nil

theorem Fits.exists_field {fields : List Field} {members : List (String × Json)}
    (h : Fits fields members) :
    ∀ m ∈ members, ∃ f ∈ fields, f.name = m.1 ∧ f.fault? m.2 = none := by
  induction h with
  | nil => exact nofun
  | @given f fs value ms h hrest ih =>
      intro m hm
      rcases List.mem_cons.1 hm with rfl | hm
      · exact ⟨f, List.mem_cons_self, rfl, h⟩
      · obtain ⟨g, hg, hname⟩ := ih m hm
        exact ⟨g, List.mem_cons_of_mem _ hg, hname⟩
  | omitted hrest ih =>
      intro m hm
      obtain ⟨g, hg, hname⟩ := ih m hm
      exact ⟨g, List.mem_cons_of_mem _ hg, hname⟩

theorem find?_name_of_nodup {fields : List Field} (hnames : (fields.map (·.name)).Nodup)
    {f : Field} (hf : f ∈ fields) : fields.find? (fun g => g.name = f.name) = some f := by
  induction fields with
  | nil => cases hf
  | cons g fs ih =>
      rw [List.map_cons, List.nodup_cons] at hnames
      rcases List.mem_cons.1 hf with rfl | hf
      · simp
      · have hne : g.name ≠ f.name := fun heq => hnames.1 (heq ▸ List.mem_map_of_mem hf)
        rw [List.find?_cons_of_neg (by simpa using hne), ih hnames.2 hf]

theorem firstFault_of_fits {fields : List Field} {members : List (String × Json)}
    (hnames : (fields.map (·.name)).Nodup) (h : Fits fields members) :
    firstFault fields members = none := by
  refine List.findSome?_eq_none_iff.2 fun (key, value) hm => ?_
  obtain ⟨f, hf, rfl, hfault⟩ := h.exists_field (key, value) hm
  simp only [find?_name_of_nodup hnames hf]
  exact hfault

theorem record_object {name : String} {fields : List Field}
    {build : List (String × Json) → Except DecodeError α} {members : List (String × Json)} {a : α}
    (hnames : (fields.map (·.name)).Nodup) (hfits : Fits fields members)
    (hbuild : build members = .ok a) : record name fields build (.object members) = .ok a := by
  rw [record, firstFault_of_fits hnames hfits]
  exact hbuild

end ResourceAudit.Decoder
