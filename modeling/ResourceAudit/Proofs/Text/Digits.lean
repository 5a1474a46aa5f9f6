import ResourceAudit.Text.Digits

/-!
# The digits of a number

The decimal digits of a number stand for it (`decimal_toDigits`), zeros in front of them do not
count, and only zero begins with a zero.
-/

namespace ResourceAudit.Text

theorem appendDigits_eq_ofDigitChars (n : Nat) (ds : List Char) :
    appendDigits n ds = Nat.ofDigitChars 10 ds n := by
  induction ds generalizing n with
  | nil => rfl
  | cons d ds ih =>
      rw [Nat.ofDigitChars_cons, ← ih, Nat.mul_comm]
      rfl

theorem decimal_toDigits (n : Nat) : decimal (Nat.toDigits 10 n) = n := by
  rw [decimal, appendDigits_eq_ofDigitChars, Nat.ofDigitChars_ten_toDigits]

theorem decimal_zeros_append (k : Nat) (ds : List Char) :
    decimal (List.replicate k '0' ++ ds) = decimal ds := by
  rw [decimal, decimal, appendDigits_eq_ofDigitChars, appendDigits_eq_ofDigitChars,
    Nat.ofDigitChars_append, Nat.ofDigitChars_replicate_zero, Nat.mul_zero]

theorem le_appendDigits (n : Nat) (ds : List Char) : n ≤ appendDigits n ds := by
  induction ds generalizing n with
  | nil => exact Nat.le_refl n
  | cons d ds ih =>
      have hnext : n ≤ n * 10 + digitValue d := by omega
      exact Nat.le_trans hnext (ih _)

theorem isDigit_of_mem_toDigits {n : Nat} {c : Char} (h : c ∈ Nat.toDigits 10 n) :
    c.isDigit = true :=
  Nat.isDigit_of_mem_toDigits (by decide) (by decide) h

theorem digitChar_ne_zero : ∀ n < 10, n ≠ 0 → Nat.digitChar n ≠ '0' := by
  decide

theorem head_toDigits_ne_zero {n : Nat} (hn : n ≠ 0) :
    ∃ c cs, Nat.toDigits 10 n = c :: cs ∧ c ≠ '0' := by
  induction n using Nat.strongRecOn with
  | _ n ih =>
      by_cases hlt : n < 10
      · exact ⟨_, _, Nat.toDigits_of_lt_base hlt, digitChar_ne_zero n hlt hn⟩
      · obtain ⟨c, cs, hcs, hc⟩ := ih (n / 10) (by omega) (by omega)
        rw [Nat.toDigits_of_base_le (by decide) (by omega), hcs]
        exact ⟨c, _, rfl, hc⟩

end ResourceAudit.Text
