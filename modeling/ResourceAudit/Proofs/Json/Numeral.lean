import ResourceAudit.Json.Reader.Numeral
import ResourceAudit.Json.Writer
import ResourceAudit.Proofs.Text.Digits

/-!
# Integers that were written

The reader of numerals takes the text of an integer of 64 bits for that integer, where what
follows does not continue the numeral.
-/

namespace ResourceAudit.Json

/-- The integers that the reader does not turn into doubles. -/
def Within64 (n : Int) : Prop := -(UInt64.size / 2 : Nat) ≤ n ∧ n < UInt64.size

instance (n : Int) : Decidable (Within64 n) := inferInstanceAs (Decidable (_ ∧ _))

namespace Reader

/-- A numeral cannot go on with this text. -/
def EndsNumeral (rest : List Char) : Prop :=
  ∀ c ∈ rest.head?, c.isDigit = false ∧ c ≠ '.' ∧ c ≠ 'e' ∧ c ≠ 'E'

/-! ## Digits -/

theorem digits_append_of {ds rest : List Char} (hds : ∀ c ∈ ds, c.isDigit = true)
    (hrest : EndsNumeral rest) : digits (ds ++ rest) = (ds, rest) := by
  have htake : rest.takeWhile Char.isDigit = [] ∧ rest.dropWhile Char.isDigit = rest := by
    cases rest with
    | nil => exact ⟨rfl, rfl⟩
    | cons c r => simp [(hrest c rfl).1]
  rw [digits, List.takeWhile_append_of_pos hds, List.dropWhile_append_of_pos hds, htake.1, htake.2,
    List.append_nil]

theorem absorb_of_lt {n : Nat} {ds : List Char} (h : Text.appendDigits n ds < UInt64.size) :
    absorb n ds = (Text.appendDigits n ds, []) := by
  induction ds generalizing n with
  | nil => rfl
  | cons d ds ih =>
      have hnext : n * 10 + Text.digitValue d < UInt64.size :=
        Nat.lt_of_le_of_lt (Text.le_appendDigits _ ds) h
      rw [absorb, if_pos hnext]
      exact ih h

/-! ## Numerals -/

theorem integerPart_digits {negative : Bool} {ds rest : List Char} {n : Int}
    (hds : Text.decimal ds < UInt64.size) (hn : integer? negative (Text.decimal ds) = some n)
    (hrest : EndsNumeral rest) : integerPart negative ds rest = .ok (.int n, rest) := by
  have habsorb : absorb 0 ds = (Text.decimal ds, []) := absorb_of_lt hds
  rw [integerPart, habsorb]
  cases rest with
  | nil => simp [hn]
  | cons c r =>
      obtain ⟨-, hpoint, he, hE⟩ := hrest c rfl
      simp only [List.length_nil]
      split
      · exact absurd (List.cons.inj ‹_›).1 hpoint
      · exact absurd (List.cons.inj ‹_›).1 he
      · exact absurd (List.cons.inj ‹_›).1 hE
      · simp [hn]

/-- Only zero begins with a zero, so a written number is not refused for a zero in front. -/
theorem unsigned_toDigits (negative : Bool) (n : Nat) {rest : List Char}
    (hrest : EndsNumeral rest) :
    unsigned negative (Nat.toDigits 10 n ++ rest) =
      integerPart negative (Nat.toDigits 10 n) rest := by
  by_cases hn : n = 0
  · rw [hn, Nat.toDigits_zero]
    cases rest with
    | nil => rfl
    | cons c r => simp [unsigned, (hrest c rfl).1]
  · have hds : ∀ c ∈ Nat.toDigits 10 n, c.isDigit = true :=
      fun _ => Text.isDigit_of_mem_toDigits
    obtain ⟨c, cs, hcs, hc⟩ := Text.head_toDigits_ne_zero hn
    have hdigit : c.isDigit = true := hds c (by simp [hcs])
    have hparts := digits_append_of hds hrest
    rw [hcs, List.cons_append] at hparts ⊢
    rw [unsigned, if_pos hdigit, hparts]
    simpa using hc

theorem numeral_toDigits (n : Nat) (rest : List Char) :
    numeral (Nat.toDigits 10 n ++ rest) = unsigned false (Nat.toDigits 10 n ++ rest) := by
  cases hds : Nat.toDigits 10 n with
  | nil => exact absurd hds Nat.toDigits_ne_nil
  | cons c cs =>
      have hdigit : c.isDigit = true := Text.isDigit_of_mem_toDigits (n := n) (by simp [hds])
      have hminus : c ≠ '-' := by rintro rfl; simp at hdigit
      rw [List.cons_append, numeral]
      simpa using hminus

theorem integer?_natAbs {n : Int} (hn : Within64 n) :
    integer? (decide (n < 0)) n.natAbs = some n := by
  have hsize : UInt64.size = 18446744073709551616 := rfl
  obtain ⟨hlow, hhigh⟩ := hn
  by_cases hneg : n < 0
  · have hzero : n.natAbs ≠ 0 := by omega
    have hbound : ¬ n.natAbs > UInt64.size / 2 := by omega
    simp only [integer?, hneg, hzero, hbound, decide_true, decide_false, Bool.or_false]
    exact congrArg some (by omega)
  · simp only [integer?, hneg, decide_false]
    exact congrArg some (by omega)

theorem numeral_writeNumber {n : Int} (hn : Within64 n) {rest : List Char}
    (hrest : EndsNumeral rest) :
    numeral (writeNumber (.int n) ++ rest) = .ok (.int n, rest) := by
  have hvalue : Text.decimal (Nat.toDigits 10 n.natAbs) = n.natAbs := Text.decimal_toDigits _
  have hbound : Text.decimal (Nat.toDigits 10 n.natAbs) < UInt64.size := by
    rw [hvalue]
    obtain ⟨hlow, hhigh⟩ := hn
    omega
  have hint : integer? (decide (n < 0)) (Text.decimal (Nat.toDigits 10 n.natAbs)) = some n := by
    rw [hvalue, integer?_natAbs hn]
  have hunsigned : numeral (writeNumber (.int n) ++ rest) =
      unsigned (decide (n < 0)) (Nat.toDigits 10 n.natAbs ++ rest) := by
    by_cases hneg : n < 0
    · simp only [writeNumber, hneg, if_true, decide_true, List.cons_append, List.nil_append,
        numeral]
    · simp only [writeNumber, hneg, if_false, decide_false, List.nil_append]
      exact numeral_toDigits n.natAbs rest
  rw [hunsigned, unsigned_toDigits _ _ hrest]
  exact integerPart_digits hbound hint hrest

end Reader

end ResourceAudit.Json
