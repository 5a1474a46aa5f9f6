import ResourceAudit.Json.Reader.Quoted
import ResourceAudit.Json.Writer

/-!
# Strings that were written

The reader of strings takes what the writer made of a character for that character, so it takes a
written string for the string (`quoted_written`).
-/

namespace ResourceAudit.Json.Reader

/-! ## Characters by number -/

theorem hexDigit?_hexDigit : ∀ n < 16, Text.hexDigit? (hexDigit n) = some n := by
  decide

theorem length_le_byteCount (s : List Char) : s.length ≤ byteCount s := by
  induction s with
  | nil => exact Nat.le_refl 0
  | cons c rest ih =>
      have hc : 0 < c.utf8Size := c.utf8Size_pos
      rw [List.length_cons, byteCount]
      omega

theorem codeUnit_hexDigits {n : Nat} (hn : n < 256) (rest : List Char) :
    codeUnit ('0' :: '0' :: hexDigit (n / 16) :: hexDigit (n % 16) :: rest) = .ok (n, rest) := by
  have hfour : 4 ≤ byteCount ['0', '0', hexDigit (n / 16), hexDigit (n % 16)] :=
    length_le_byteCount ['0', '0', hexDigit (n / 16), hexDigit (n % 16)]
  have hhigh := hexDigit?_hexDigit (n / 16) (by omega)
  have hlow := hexDigit?_hexDigit (n % 16) (by omega)
  have hzero : Text.hexDigit? '0' = some 0 := rfl
  have hunit : n / 16 * 16 + n % 16 = n := by omega
  rw [codeUnit]
  simp only [List.take_succ_cons, List.take_zero, Nat.not_lt.2 hfour, if_false, fourHex?, hzero,
    hhigh, hlow, Option.bind_eq_bind, Option.bind_some, Nat.zero_mul, Nat.zero_add, hunit]

theorem numericEscape_hexDigits {c : Char} (hc : c.toNat < 0x20) (rest : List Char) :
    numericEscape ('0' :: '0' :: hexDigit (c.toNat / 16) :: hexDigit (c.toNat % 16) :: rest) =
      .ok (c, rest) := by
  have htrailing : isTrailingSurrogate c.toNat = false := by
    simp only [isTrailingSurrogate, Bool.and_eq_false_iff, decide_eq_false_iff_not]
    omega
  have hleading : isLeadingSurrogate c.toNat = false := by
    simp only [isLeadingSurrogate, Bool.and_eq_false_iff, decide_eq_false_iff_not]
    omega
  rw [numericEscape, codeUnit_hexDigits (by omega)]
  simp [htrailing, hleading]

/-! ## Characters and strings -/

theorem quoted_of_escape {done s rest : List Char} {c : Char} (h : escape s = .ok (c, rest)) :
    quoted done ('\\' :: s) = quoted (c :: done) rest := by
  rw [quoted]
  split <;> simp_all

theorem quoted_of_plain {done s : List Char} {c : Char} (hquote : c ≠ '"') (hslash : c ≠ '\\')
    (hc : ¬ c.toNat < 0x20) : quoted done (c :: s) = quoted (c :: done) s := by
  rw [quoted]
  · rw [if_neg hc]
  · simpa using hquote
  · simpa using hslash

theorem quoted_writeChar (done : List Char) (c : Char) (rest : List Char) :
    quoted done (writeChar c ++ rest) = quoted (c :: done) rest := by
  unfold writeChar
  split
  · exact quoted_of_escape rfl
  · exact quoted_of_escape rfl
  · exact quoted_of_escape rfl
  · exact quoted_of_escape rfl
  · exact quoted_of_escape rfl
  · exact quoted_of_escape rfl
  · exact quoted_of_escape rfl
  · rename_i hquote hslash _ _ _ _ _
    split
    · rename_i hc
      exact quoted_of_escape (numericEscape_hexDigits hc rest)
    · rename_i hc
      exact quoted_of_plain hquote hslash hc

theorem quoted_flatMap_writeChar (done s rest : List Char) :
    quoted done (s.flatMap writeChar ++ '"' :: rest) =
      .ok (String.ofList (done.reverse ++ s), rest) := by
  induction s generalizing done with
  | nil => simp [quoted]
  | cons c s ih =>
      rw [List.flatMap_cons, List.append_assoc, quoted_writeChar, ih, List.reverse_cons,
        List.append_assoc, List.singleton_append]

theorem writeString_append (s : String) (rest : List Char) :
    writeString s ++ rest = '"' :: (s.toList.flatMap writeChar ++ '"' :: rest) := by
  simp [writeString]

theorem quoted_written (s : String) (rest : List Char) :
    quoted [] (s.toList.flatMap writeChar ++ '"' :: rest) = .ok (s, rest) := by
  rw [quoted_flatMap_writeChar, List.reverse_nil, List.nil_append, String.ofList_toList]

end ResourceAudit.Json.Reader
