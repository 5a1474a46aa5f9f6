import ResourceAudit.Json.Writer
import ResourceAudit.Proofs.Text.Digits

/-!
# The characters of written scalars

A number is written in digits, signs, points and the mark of an exponent. No null, truth value or
number has another letter than those of its own name in its text. No value has an empty one
(`write_ne_nil`).
-/

namespace ResourceAudit

/-! ## Numerals -/

namespace Decimal

/-- The characters of numerals. -/
def IsNumeral (c : Char) : Prop := c.isDigit = true ∨ c ∈ ['-', '+', '.', 'e']

theorem isNumeral_zero : IsNumeral '0' := .inl rfl

theorem isNumeral_point : IsNumeral '.' := .inr (by decide)

theorem isNumeral_minus : IsNumeral '-' := .inr (by decide)

theorem isNumeral_toDigits (n : Nat) : ∀ c ∈ Nat.toDigits 10 n, IsNumeral c :=
  fun _ hc => .inl (Text.isDigit_of_mem_toDigits hc)

theorem mem_of_mem_withoutTrailingZeros {c : Char} {ds : List Char}
    (h : c ∈ withoutTrailingZeros ds) : c ∈ ds :=
  List.mem_reverse.1 ((List.dropWhile_sublist _).mem (List.mem_reverse.1 h))

theorem isNumeral_zeros (n : Nat) : ∀ c ∈ zeros n, IsNumeral c := by
  intro c hc
  rw [List.eq_of_mem_replicate hc]
  exact isNumeral_zero

variable {ds : List Char}

theorem isNumeral_writePositional (hds : ∀ c ∈ ds, IsNumeral c) (whole : Int) :
    ∀ c ∈ writePositional ds whole, IsNumeral c := by
  unfold writePositional
  split
  · have hfront : ∀ c ∈ '0' :: '.' :: zeros (-whole).toNat, IsNumeral c :=
      List.forall_mem_cons.2 ⟨isNumeral_zero,
        List.forall_mem_cons.2 ⟨isNumeral_point, isNumeral_zeros _⟩⟩
    exact List.forall_mem_append.2 ⟨hfront, hds⟩
  · dsimp only
    split
    · have hend : ∀ c ∈ ['.', '0'], IsNumeral c :=
        List.forall_mem_cons.2 ⟨isNumeral_point, List.forall_mem_singleton.2 isNumeral_zero⟩
      exact List.forall_mem_append.2
        ⟨List.forall_mem_append.2 ⟨hds, isNumeral_zeros _⟩, hend⟩
    · exact List.forall_mem_append.2 ⟨fun c hc => hds c (List.mem_of_mem_take hc),
        List.forall_mem_cons.2 ⟨isNumeral_point, fun c hc => hds c (List.mem_of_mem_drop hc)⟩⟩

theorem isNumeral_writeScientific (hds : ∀ c ∈ ds, IsNumeral c) (exponent : Int) :
    ∀ c ∈ writeScientific ds exponent, IsNumeral c := by
  have hmark : IsNumeral 'e' := .inr (by decide)
  have hsign : IsNumeral (if exponent < 0 then '-' else '+') := by
    split <;> exact .inr (by decide)
  refine List.forall_mem_append.2 ⟨?_, List.forall_mem_cons.2
    ⟨hmark, List.forall_mem_cons.2 ⟨hsign, isNumeral_toDigits _⟩⟩⟩
  split
  · obtain ⟨hd, hrest⟩ := List.forall_mem_cons.1 hds
    exact List.forall_mem_cons.2 ⟨hd, List.forall_mem_cons.2 ⟨isNumeral_point, hrest⟩⟩
  · exact hds

theorem Layout.isNumeral_write (l : Layout) (d : Scientific) : ∀ c ∈ l.write d, IsNumeral c := by
  have hds : ∀ c ∈ withoutTrailingZeros (Nat.toDigits 10 d.digits), IsNumeral c :=
    fun c hc => isNumeral_toDigits _ c (mem_of_mem_withoutTrailingZeros hc)
  unfold Layout.write
  dsimp only
  split
  · exact isNumeral_writePositional hds _
  · exact isNumeral_writeScientific hds _

theorem Layout.isNumeral_double (l : Layout) (f : Float) : ∀ c ∈ l.double f, IsNumeral c := by
  have hdigits : ∀ c ∈ if (magnitude f).mantissa = 0 then ['0', '.', '0']
      else l.write (magnitude f).shortest, IsNumeral c := by
    split
    · exact List.forall_mem_cons.2 ⟨isNumeral_zero, List.forall_mem_cons.2
        ⟨isNumeral_point, List.forall_mem_singleton.2 isNumeral_zero⟩⟩
    · exact l.isNumeral_write _
  unfold Layout.double
  dsimp only
  split
  · exact List.forall_mem_cons.2 ⟨isNumeral_minus, hdigits⟩
  · exact hdigits

theorem writePositional_ne_nil (ds : List Char) (whole : Int) : writePositional ds whole ≠ [] := by
  unfold writePositional
  split
  · exact List.cons_ne_nil _ _
  · dsimp only
    split
    · exact List.append_ne_nil_of_right_ne_nil _ (List.cons_ne_nil _ _)
    · exact List.append_ne_nil_of_right_ne_nil _ (List.cons_ne_nil _ _)

theorem Layout.double_ne_nil (l : Layout) (f : Float) : l.double f ≠ [] := by
  have hwrite (d : Scientific) : l.write d ≠ [] := by
    unfold Layout.write
    dsimp only
    split
    · exact writePositional_ne_nil _ _
    · exact List.append_ne_nil_of_right_ne_nil _ (List.cons_ne_nil _ _)
  unfold Layout.double
  dsimp only
  split
  · exact List.cons_ne_nil _ _
  · split
    · exact List.cons_ne_nil _ _
    · exact hwrite _

end Decimal

/-! ## Scalars -/

namespace Json

open Decimal

theorem isNumeral_writeNumber (n : Number) :
    (∀ c ∈ writeNumber n, IsNumeral c) ∨ writeNumber n = ['n', 'u', 'l', 'l'] := by
  cases n with
  | int n =>
      left
      refine List.forall_mem_append.2 ⟨?_, isNumeral_toDigits _⟩
      split
      · exact List.forall_mem_singleton.2 isNumeral_minus
      · exact nofun
  | float f =>
      rw [writeNumber]
      split
      · exact .inl (Layout.json.isNumeral_double f)
      · exact .inr rfl

theorem not_isNumeral_p : ¬ IsNumeral 'p' := by
  rintro (h | h)
  · exact absurd h (by decide)
  · exact absurd h (by decide)

/-- Only a text, a list or an object has the letter in its JSON text. -/
theorem p_notMem_write {j : Json} (h : j.kind ∈ [.null, .boolean, .number]) (sp : Spacing)
    (level : Nat) : 'p' ∉ j.write sp level := by
  cases j with
  | null => simp [write]
  | bool b => cases b <;> simp [write, writeBool]
  | number n =>
      rw [write]
      intro hmem
      rcases isNumeral_writeNumber n with hnumeral | hnull
      · exact not_isNumeral_p (hnumeral _ hmem)
      · exact absurd (hnull ▸ hmem) (by decide)
  | string | list | object => exact absurd h (by simp [kind])

theorem writeNumber_ne_nil (n : Number) : writeNumber n ≠ [] := by
  cases n with
  | int n => exact List.append_ne_nil_of_right_ne_nil _ Nat.toDigits_ne_nil
  | float f =>
      rw [writeNumber]
      split
      · exact Layout.json.double_ne_nil f
      · exact List.cons_ne_nil _ _

/-- Every value has a text. -/
theorem write_ne_nil (j : Json) (sp : Spacing) (level : Nat) : j.write sp level ≠ [] := by
  cases j with
  | null | string => exact List.cons_ne_nil _ _
  | bool b => cases b <;> exact List.cons_ne_nil _ _
  | number n => exact writeNumber_ne_nil n
  | list items => cases items <;> exact List.cons_ne_nil _ _
  | object members => cases members <;> exact List.cons_ne_nil _ _

end Json

end ResourceAudit
