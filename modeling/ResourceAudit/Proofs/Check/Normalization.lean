import ResourceAudit.Proofs.Check.Descent
import ResourceAudit.Proofs.Json.Scalars

/-!
# Normal forms of attributes

An attribute is normalized to where the descent along its first items ends: at a value that is no
list, or at an empty list, which stands for no value (`Normalized.reaches_normal_form`).
-/

namespace ResourceAudit

open Relation

namespace Normalized

/-! ## Normal forms -/

/-- What a normalized attribute says of the value it was made from. -/
structure Normalizes (raw : Option Json) (n : Normalized) : Prop where
  terminates : ∀ value, raw = some value → Acc (fun j' j => Json.Enters j j') value
  absent_iff : n = .absent ↔
    raw = none ∨ ∃ value, raw = some value ∧ ReflTransGen Json.Enters value (.list [])
  scalar_iff : ∀ leaf, n = .scalar leaf ↔
    leaf.kind ≠ .list ∧ ∃ value, raw = some value ∧ ReflTransGen Json.Enters value leaf
  not_list : ∀ items, n ≠ .scalar (.list items)
  again : n.again = n
  fedBack : ofRaw n.value? = n

theorem display_scalar_eq_empty_iff {value : Json} :
    (scalar value).display = "" ↔ value = .string "" := by
  cases value with
  | string s => simp [display]
  | null | bool | number | list | object => simp [display, Json.compact, Json.write_ne_nil]

theorem ofRaw_eq_scalar_iff {raw : Option Json} {leaf : Json} :
    ofRaw raw = .scalar leaf ↔
      leaf.kind ≠ .list ∧ ∃ value, raw = some value ∧ ReflTransGen Json.Enters value leaf := by
  cases raw with
  | none => simp [ofRaw]
  | some value =>
      rw [ofRaw, ← Json.leadsTo_iff]
      constructor
      · exact fun h => ⟨h.kind_ne, value, rfl, h.descent⟩
      · rintro ⟨hkind, _, ⟨⟩, hdescent⟩
        exact ⟨hdescent, hkind⟩

theorem again_eq (n : Normalized) : n.again = ofRaw n.value? := by
  cases n <;> rfl

theorem again_ofRaw (raw : Option Json) : (ofRaw raw).again = ofRaw raw := by
  cases hend : ofRaw raw with
  | absent => rfl
  | scalar leaf => exact Json.ofJson_of_kind_ne (ofRaw_eq_scalar_iff.1 hend).1

theorem normalizes_ofRaw (raw : Option Json) : Normalizes raw (ofRaw raw) := by
  constructor
  case terminates => exact fun value _ => Json.wellFounded_enters.apply value
  case absent_iff =>
    cases raw with
    | none => simp [ofRaw]
    | some value => simp [ofRaw, Json.ofJson_eq_absent_iff]
  case scalar_iff => exact fun _ => ofRaw_eq_scalar_iff
  case not_list => exact fun items h => (ofRaw_eq_scalar_iff.1 h).1 rfl
  case again => exact again_ofRaw raw
  case fedBack => rw [← again_eq, again_ofRaw]

/-- Whatever an attribute is, its descent ends, and its normal form is the end: by every way of
reading it, and of reading it once more. -/
theorem reaches_normal_form :
    (∀ raw, Normalizes raw (ofRaw raw)) ∧
      (∀ (r : Resource) key, Normalizes (r.attribute? key) (r.normalized key)) ∧
      (∀ first rest, ofRaw (some (.list (first :: rest))) = ofRaw (some first)) ∧
      ∀ value, (scalar value).display = "" ↔ value = .string "" :=
  ⟨normalizes_ofRaw, fun r key => normalizes_ofRaw (r.attribute? key),
    fun first rest => Json.Enters.ofJson_eq (.first first rest),
    fun _ => display_scalar_eq_empty_iff⟩

end Normalized

end ResourceAudit
