import ResourceAudit.Check.Builtin
import Mathlib.Algebra.Group.Nat.Defs
import Mathlib.Logic.Relation

/-!
# Descents into lists

A value may stand inside lists. Two descents look for it: one goes along first items only, turn by
turn, and must end (`wellFounded_enters`) at one value (`LeadsTo`) or at an empty list; the other
goes into every item and ends at many (`HasLeaf`). The first is how `Normalized.ofJson` reads, the
second decides `isVoid`.
-/

namespace ResourceAudit

open Relation

/-! ## Zeros among doubles -/

section Zeros

open Float.Model

theorem exists_eq_zero_of_compare {x : UnpackedFloat} {s : UnpackedFloat.Sign}
    (h : x.compare (.zero s) = some .eq) : ∃ s', x = .zero s' := by
  cases x with
  | zero s' => exact ⟨s', rfl⟩
  | notANumber => cases h
  | infinity s' | finite s' => cases s' <;> cases h

/-- But for its sign, a double that reads as zero has no bits. -/
theorem mod_of_unpack_eq_zero {bits : BitVec 64} {s : UnpackedFloat.Sign}
    (h : UnpackedFloat.unpack .binary64 bits = .zero s) : bits.toNat % 2 ^ 63 = 0 := by
  have hhigh : (@UnpackedFloat.unpackExponent .binary64 bits).toNat =
      bits.toNat / 2 ^ 52 % 2 ^ 11 := by
    rw [← Nat.shiftRight_eq_div_pow]
    rfl
  have hlow : (@UnpackedFloat.unpackMantissa .binary64 bits).toNat = bits.toNat % 2 ^ 52 := rfl
  delta UnpackedFloat.unpack at h
  dsimp only at h
  by_cases hinfinite : @UnpackedFloat.unpackExponent .binary64 bits = -1#11
  · rw [if_pos hinfinite] at h
    by_cases hmantissa : @UnpackedFloat.unpackMantissa .binary64 bits = 0#52
    · rw [if_pos hmantissa] at h
      cases h
    · rw [if_neg hmantissa] at h
      cases h
  · rw [if_neg hinfinite] at h
    by_cases hexponent : @UnpackedFloat.unpackExponent .binary64 bits = 0#11
    · rw [if_pos hexponent] at h
      by_cases hmantissa : @UnpackedFloat.unpackMantissa .binary64 bits = 0#52
      · rw [hexponent] at hhigh
        rw [hmantissa] at hlow
        simp only [BitVec.toNat_ofNat, Nat.zero_mod] at hhigh hlow
        omega
      · rw [dif_neg hmantissa] at h
        cases h
    · rw [if_neg hexponent] at h
      cases h

theorem Number.isZero_float_iff {f : Float} :
    (Number.float f).isZero = true ↔ f = 0.0 ∨ f = -0.0 := by
  constructor
  · intro h
    obtain ⟨⟨bits, _⟩⟩ := f
    have hzero : UnpackedFloat.unpack .binary64 0 = .zero .positive := rfl
    have hcompare : (UnpackedFloat.unpack .binary64 bits.toBitVec).compare (.zero .positive) =
        some .eq := hzero ▸ beq_iff_eq.1 h
    obtain ⟨s, hs⟩ := exists_eq_zero_of_compare hcompare
    have hmod : bits.toNat % 2 ^ 63 = 0 := mod_of_unpack_eq_zero hs
    have hbound : bits.toNat < 2 ^ 64 := bits.toNat_lt
    obtain hbits | hbits : bits.toNat = 0 ∨ bits.toNat = 2 ^ 63 := by omega
    · obtain rfl : bits = 0 := UInt64.toNat_inj.1 hbits
      exact .inl rfl
    · obtain rfl : bits = 0x8000000000000000 := UInt64.toNat_inj.1 hbits
      exact .inr rfl
  · rintro (rfl | rfl) <;> decide

end Zeros

namespace Json

variable {j j' : Json}

/-! ## First items -/

/-- One turn of a descent, from a list to its first item. -/
inductive Enters : Json → Json → Prop
  | first (first : Json) (rest : List Json) : Enters (.list (first :: rest)) first

/-- The value behind any number of lists of which only first items are looked at. -/
structure LeadsTo (j leaf : Json) : Prop where
  descent : ReflTransGen Enters j leaf
  kind_ne : leaf.kind ≠ .list

theorem Enters.sizeOf_lt (h : Enters j j') : sizeOf j' < sizeOf j := by
  cases h
  simp only [list.sizeOf_spec, List.cons.sizeOf_spec]
  omega

/-- No descent goes on forever. -/
theorem wellFounded_enters : WellFounded fun j' j => Enters j j' :=
  Subrelation.wf Enters.sizeOf_lt (measure sizeOf).wf

/-- A descent ends at an empty list or at a value that is no list. -/
theorem empty_or_leadsTo (j : Json) :
    ReflTransGen Enters j (.list []) ∨ ∃ leaf, j.LeadsTo leaf := by
  induction j using wellFounded_enters.induction with
  | _ j ih =>
      cases j with
      | list items => cases items with
        | nil => exact .inl .refl
        | cons first rest =>
            have hturn : Enters (.list (first :: rest)) first := .first first rest
            rcases ih first hturn with hempty | ⟨leaf, hdescent, hkind⟩
            · exact .inl (.head hturn hempty)
            · exact .inr ⟨leaf, .head hturn hdescent, hkind⟩
      | null | bool | number | string | object => exact .inr ⟨_, .refl, by rintro ⟨⟩⟩

theorem ofJson_of_kind_ne {j : Json} (h : j.kind ≠ .list) : Normalized.ofJson j = .scalar j := by
  cases j with
  | list => exact absurd rfl h
  | null | bool | number | string | object => rfl

theorem Enters.ofJson_eq (h : Enters j j') : Normalized.ofJson j = Normalized.ofJson j' := by
  cases h
  rfl

/-- All values along a descent have the same normal form. -/
theorem ofJson_eq_of_descent (h : ReflTransGen Enters j j') :
    Normalized.ofJson j = Normalized.ofJson j' := by
  induction h with
  | refl => rfl
  | tail _ hturn ih => exact ih.trans hturn.ofJson_eq

theorem LeadsTo.ofJson_eq {leaf : Json} (h : j.LeadsTo leaf) :
    Normalized.ofJson j = .scalar leaf := by
  rw [ofJson_eq_of_descent h.descent, ofJson_of_kind_ne h.kind_ne]

theorem leadsTo_iff {leaf : Json} : j.LeadsTo leaf ↔ Normalized.ofJson j = .scalar leaf := by
  refine ⟨LeadsTo.ofJson_eq, fun h => ?_⟩
  rcases empty_or_leadsTo j with hempty | ⟨leaf', hleads⟩
  · rw [ofJson_eq_of_descent hempty] at h
    cases h
  · rw [hleads.ofJson_eq] at h
    cases h
    exact hleads

theorem ofJson_eq_absent_iff :
    Normalized.ofJson j = .absent ↔ ReflTransGen Enters j (.list []) := by
  refine ⟨fun h => ?_, ofJson_eq_of_descent⟩
  rcases empty_or_leadsTo j with hempty | ⟨leaf, hleads⟩
  · exact hempty
  · rw [hleads.ofJson_eq] at h
    cases h

/-! ## Values that say something -/

/-- A value that says more than a missing one. -/
inductive Substantial : Json → Prop
  | yes : Substantial (.bool true)
  | integer {n : Int} (h : n ≠ 0) : Substantial (.number (.int n))
  | double {f : Float} (hpositive : f ≠ 0.0) (hnegative : f ≠ -0.0) :
      Substantial (.number (.float f))
  | text {s : String} (h : s ≠ "") : Substantial (.string s)
  | object {members : List (String × Json)} (h : members ≠ []) : Substantial (.object members)

theorem Substantial.isVoid_eq_false {j : Json} (h : j.Substantial) : j.isVoid = false := by
  cases h with
  | yes => rfl
  | integer h => simpa [isVoid, Number.isZero] using h
  | double hpositive hnegative =>
      rw [isVoid, Bool.eq_false_iff]
      exact fun hzero => (Number.isZero_float_iff.1 hzero).elim hpositive hnegative
  | text h => simpa [isVoid] using h
  | object h => simpa [isVoid] using h

theorem substantial_of_isVoid_eq_false {j : Json} (hkind : j.kind ≠ .list)
    (h : j.isVoid = false) : j.Substantial := by
  cases j with
  | null => cases h
  | list => exact absurd rfl hkind
  | bool b => cases b with
    | false => cases h
    | true => exact .yes
  | number n => cases n with
    | int n => exact .integer (by simpa [isVoid, Number.isZero] using h)
    | float f =>
        rw [isVoid, Bool.eq_false_iff, Ne, Number.isZero_float_iff, not_or] at h
        exact .double h.1 h.2
  | string s => exact .text (by simpa [isVoid] using h)
  | object members => exact .object (by simpa [isVoid] using h)

/-! ## All items -/

/-- A value behind any number of lists of which every item is looked at. -/
inductive HasLeaf : Json → Json → Prop
  | here {j : Json} (h : j.kind ≠ .list) : HasLeaf j j
  | item {items : List Json} {item leaf : Json} (hmem : item ∈ items) (h : HasLeaf item leaf) :
      HasLeaf (.list items) leaf

theorem areVoid_eq_all (items : List Json) : areVoid items = items.all isVoid := by
  induction items with
  | nil => rfl
  | cons j rest ih => rw [areVoid, ih, List.all_cons]

theorem HasLeaf.isVoid_eq_false {j leaf : Json} (h : j.HasLeaf leaf) (hleaf : leaf.isVoid = false) :
    j.isVoid = false := by
  induction h with
  | here => exact hleaf
  | item hmem _ ih =>
      rw [isVoid, areVoid_eq_all, List.all_eq_false]
      exact ⟨_, hmem, by simp [ih hleaf]⟩

mutual
theorem exists_leaf_of_isVoid_eq_false : ∀ {j : Json}, j.isVoid = false →
    ∃ leaf, j.HasLeaf leaf ∧ leaf.Substantial
  | .list _, h => by
      obtain ⟨item, hmem, leaf, hleaf, hsubstantial⟩ := exists_item_of_areVoid_eq_false h
      exact ⟨leaf, .item hmem hleaf, hsubstantial⟩
  | .null, h | .bool _, h | .number _, h | .string _, h | .object _, h =>
      ⟨_, .here nofun, substantial_of_isVoid_eq_false nofun h⟩
theorem exists_item_of_areVoid_eq_false : ∀ {items : List Json}, areVoid items = false →
    ∃ item ∈ items, ∃ leaf, item.HasLeaf leaf ∧ leaf.Substantial
  | [], h => nomatch h
  | j :: rest, h => by
      rw [areVoid, Bool.and_eq_false_iff] at h
      rcases h with hfirst | hrest
      · exact ⟨j, List.mem_cons_self, exists_leaf_of_isVoid_eq_false hfirst⟩
      · obtain ⟨item, hmem, hitem⟩ := exists_item_of_areVoid_eq_false hrest
        exact ⟨item, List.mem_cons_of_mem _ hmem, hitem⟩
end

/-- A value says something exactly when one of its leaves does. -/
theorem isVoid_eq_false_iff {j : Json} :
    j.isVoid = false ↔ ∃ leaf, j.HasLeaf leaf ∧ leaf.Substantial :=
  ⟨exists_leaf_of_isVoid_eq_false, fun ⟨_, hleaf, h⟩ => hleaf.isVoid_eq_false h.isVoid_eq_false⟩

example : (list [.list [.null, .number (.float (-0.0))], .object []]).isVoid = true := by decide

end Json

end ResourceAudit
