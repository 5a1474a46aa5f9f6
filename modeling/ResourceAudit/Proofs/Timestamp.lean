import ResourceAudit.Proofs.Accepted
import ResourceAudit.Proofs.Text.Digits
import ResourceAudit.Timestamp
import Mathlib.Algebra.Group.Nat.Defs

/-!
# Timestamps that were written

The text of a timestamp is read back as the timestamp (`parse_toText`): every component is written
with as many digits as its reader takes, and the zeros that the fraction leaves out are filled in.
-/

namespace ResourceAudit.Timestamp

/-! ## Digits -/

theorem length_padded (width n : Nat) (hwidth : 0 < width) (hn : n < 10 ^ width) :
    (padded width n).length = width := by
  have hlen : (Nat.toDigits 10 n).length ≤ width :=
    (Nat.length_toDigits_le_iff (by decide) hwidth).2 hn
  rw [padded, List.length_append, List.length_replicate]
  omega

theorem isDigit_of_mem_padded (width n : Nat) {c : Char} (h : c ∈ padded width n) :
    c.isDigit = true := by
  rcases List.mem_append.1 h with h | h
  · rw [List.eq_of_mem_replicate h]
    rfl
  · exact Text.isDigit_of_mem_toDigits h

theorem decimal_padded (width n : Nat) : Text.decimal (padded width n) = n := by
  rw [padded, Text.decimal_zeros_append, Text.decimal_toDigits]

theorem readDigits_padded (c : Component) (width n : Nat) (ok : Nat → Bool) (hwidth : 0 < width)
    (hn : n < 10 ^ width) (hok : ok n = true) (rest : List Char) :
    readDigits c width ok (padded width n ++ rest) = .ok (n, rest) := by
  have hlen := length_padded width n hwidth hn
  have hall : (padded width n).all Char.isDigit = true :=
    List.all_eq_true.2 fun _ => isDigit_of_mem_padded width n
  rw [readDigits, List.take_left' hlen, List.drop_left' hlen]
  simp only [hlen, hall, decimal_padded, hok, decide_true, Bool.and_self, if_true]

/-! ## Fractions -/

theorem eq_trimmed_append_zeros (ds : List Char) :
    ∃ k, ds = (ds.reverse.dropWhile (· == '0')).reverse ++ List.replicate k '0' := by
  have hparts : ds.reverse.takeWhile (· == '0') ++ ds.reverse.dropWhile (· == '0') = ds.reverse :=
    List.takeWhile_append_dropWhile
  have hzeros : ds.reverse.takeWhile (· == '0') =
      List.replicate (ds.reverse.takeWhile (· == '0')).length '0' :=
    List.eq_replicate_of_mem fun c hc => by simpa using List.all_eq_true.1 List.all_takeWhile c hc
  refine ⟨(ds.reverse.takeWhile (· == '0')).length, ?_⟩
  calc ds = (ds.reverse.takeWhile (· == '0') ++ ds.reverse.dropWhile (· == '0')).reverse := by
        rw [hparts, List.reverse_reverse]
    _ = _ := by rw [List.reverse_append, hzeros, List.reverse_replicate, List.length_replicate]

/-- What stands behind the fraction of a second cannot be taken for a part of it. -/
def EndsFraction (rest : List Char) : Prop := ∀ c ∈ rest.head?, c.isDigit = false ∧ c ≠ '.'

theorem readFraction_none {rest : List Char} (hrest : EndsFraction rest) :
    readFraction rest = .ok (0, rest) := by
  cases rest with
  | nil => rfl
  | cons c r =>
      have hpoint : c ≠ '.' := (hrest c rfl).2
      simp [readFraction, hpoint]

theorem readFraction_digits {ds rest : List Char} (hne : ds ≠ [])
    (hds : ∀ c ∈ ds, c.isDigit = true) (hlen : ds.length ≤ 9) (hrest : EndsFraction rest) :
    readFraction ('.' :: (ds ++ rest)) =
      .ok (Text.decimal (ds ++ List.replicate (9 - ds.length) '0'), rest) := by
  have hstop : rest.takeWhile Char.isDigit = [] ∧ rest.dropWhile Char.isDigit = rest := by
    cases rest with
    | nil => exact ⟨rfl, rfl⟩
    | cons c r => simp [(hrest c rfl).1]
  have htake : (ds ++ rest).takeWhile Char.isDigit = ds := by
    rw [List.takeWhile_append_of_pos hds, hstop.1, List.append_nil]
  have hdrop : (ds ++ rest).dropWhile Char.isDigit = rest := by
    rw [List.dropWhile_append_of_pos hds, hstop.2]
  simp only [readFraction, htake, hdrop, List.isEmpty_iff, hne, if_false,
    List.take_of_length_le hlen]

theorem readFraction_writeFraction {nanosecond : Nat} (hn : nanosecond < 1000000000)
    {rest : List Char} (hrest : EndsFraction rest) :
    readFraction (writeFraction nanosecond ++ rest) = .ok (nanosecond, rest) := by
  by_cases hzero : nanosecond = 0
  · rw [writeFraction, if_pos hzero, List.nil_append, readFraction_none hrest, hzero]
  · obtain ⟨k, hk⟩ := eq_trimmed_append_zeros (padded 9 nanosecond)
    rw [writeFraction, if_neg hzero, List.cons_append]
    generalize ((padded 9 nanosecond).reverse.dropWhile (· == '0')).reverse = ds at hk ⊢
    have hlen := length_padded 9 nanosecond (by decide) hn
    rw [hk, List.length_append, List.length_replicate] at hlen
    have hne : ds ≠ [] := by
      rintro rfl
      have hdecimal := decimal_padded 9 nanosecond
      rw [hk, List.nil_append, ← List.append_nil (List.replicate k '0'),
        Text.decimal_zeros_append] at hdecimal
      exact hzero hdecimal.symm
    have hds : ∀ c ∈ ds, c.isDigit = true := fun c hc =>
      isDigit_of_mem_padded 9 nanosecond (hk ▸ List.mem_append_left _ hc)
    have hzeros : 9 - ds.length = k := by omega
    rw [readFraction_digits hne hds (by omega) hrest, hzeros, ← hk, decimal_padded]

/-! ## Offsets -/

theorem readOffsetParts_padded (hours minutes : Nat) (hh : hours ≤ 23) (hm : minutes < 60) :
    readOffsetParts (padded 2 hours ++ ':' :: padded 2 minutes) = .ok ((hours, minutes), []) := by
  have hhours := readDigits_padded .offsetHour 2 hours (· ≤ 23) (by decide) (by omega)
    (decide_eq_true hh) (':' :: padded 2 minutes)
  have hminutes : readDigits .offsetMinute 2 (fun _ => true) (padded 2 minutes ++ []) = _ :=
    readDigits_padded .offsetMinute 2 minutes _ (by decide) (by omega) rfl []
  rw [List.append_nil] at hminutes
  simp only [readOffsetParts, hhours, hminutes, readLiteral, hm, bind, Except.bind, if_true]
  rfl

theorem readOffset_writeOffset {offset : Int} (h : offset.natAbs < 24 * 60) :
    readOffset (writeOffset offset) = .ok (offset, []) := by
  by_cases hzero : offset = 0
  · rw [hzero]
    rfl
  · have hparts := readOffsetParts_padded (offset.natAbs / 60) (offset.natAbs % 60)
      (by omega) (by omega)
    have hminutes : offset.natAbs / 60 * 60 + offset.natAbs % 60 = offset.natAbs := by omega
    rw [writeOffset, if_neg hzero]
    by_cases hneg : offset < 0
    · rw [if_pos hneg, List.cons_append, readOffset, hparts]
      simp only [Except.map, hminutes]
      congr 2
      omega
    · rw [if_neg hneg, List.cons_append, readOffset, hparts]
      simp only [Except.map, hminutes]
      congr 2
      omega

theorem endsFraction_writeOffset (offset : Int) : EndsFraction (writeOffset offset) := by
  intro c hc
  rw [writeOffset] at hc
  split at hc
  · cases hc
    decide
  · split at hc
    · cases hc
      decide
    · cases hc
      decide

/-! ## Timestamps -/

/-- The components of a timestamp, as its text spells them. -/
def spelled (t : Timestamp) : Spelled where
  year := t.year
  month := t.month
  day := t.day
  hour := t.hour
  minute := t.minute
  second := t.second
  nanosecond := t.nanosecond
  offset := t.offset

theorem ofSpelled_spelled (t : Timestamp) : ofSpelled t.spelled = .ok t := by
  have hyear : ¬ 10000 ≤ t.spelled.year := Nat.not_le.2 t.year_lt
  have hmonth : ¬ (t.spelled.month < 1 ∨ 12 < t.spelled.month) :=
    not_or.2 ⟨Nat.not_lt.2 t.month_pos, Nat.not_lt.2 t.month_le⟩
  have hday : ¬ (t.spelled.day < 1 ∨ daysInMonth t.spelled.year t.spelled.month < t.spelled.day) :=
    not_or.2 ⟨Nat.not_lt.2 t.day_pos, Nat.not_lt.2 t.day_le⟩
  have hhour : ¬ 24 ≤ t.spelled.hour := Nat.not_le.2 t.hour_lt
  have hminute : ¬ 60 ≤ t.spelled.minute := Nat.not_le.2 t.minute_lt
  have hsecond : ¬ 60 ≤ t.spelled.second := Nat.not_le.2 t.second_lt
  have hnanosecond : ¬ 1000000000 ≤ t.spelled.nanosecond := Nat.not_le.2 t.nanosecond_lt
  have hoffset : ¬ 24 * 60 ≤ t.spelled.offset.natAbs := Nat.not_le.2 t.offset_lt
  rw [ofSpelled, dif_neg hyear, dif_neg hmonth, dif_neg hday, dif_neg hhour, dif_neg hminute,
    dif_neg hsecond, dif_neg hnanosecond, dif_neg hoffset]
  rfl

theorem day_le_thirtyOne (t : Timestamp) : t.day ≤ 31 := by
  have hmonth : daysInMonth t.year t.month ≤ 31 := by
    rw [daysInMonth]
    repeat' split
    all_goals decide
  exact Nat.le_trans t.day_le hmonth

theorem readSpelled_write (t : Timestamp) : readSpelled t.write = .ok t.spelled := by
  have hyear := readDigits_padded .year 4 t.year (fun _ => true) (by decide) t.year_lt rfl
  have hmonth := readDigits_padded .month 2 t.month (· ≠ 0) (by decide)
    (Nat.lt_of_le_of_lt t.month_le (by decide)) (decide_eq_true (Nat.ne_of_gt t.month_pos))
  have hday := readDigits_padded .day 2 t.day (fun _ => true) (by decide)
    (Nat.lt_of_le_of_lt t.day_le_thirtyOne (by decide)) rfl
  have hhour := readDigits_padded .hour 2 t.hour (fun _ => true) (by decide)
    (Nat.lt_trans t.hour_lt (by decide)) rfl
  have hminute := readDigits_padded .minute 2 t.minute (fun _ => true) (by decide)
    (Nat.lt_trans t.minute_lt (by decide)) rfl
  have hsecond := readDigits_padded .second 2 t.second (fun _ => true) (by decide)
    (Nat.lt_trans t.second_lt (by decide)) rfl
  have hseparator (rest : List Char) : readSeparator ('T' :: rest) = .ok rest := by
    rw [readSeparator, if_pos (by decide)]
  have hfraction := readFraction_writeFraction t.nanosecond_lt (endsFraction_writeOffset t.offset)
  have hoffset := readOffset_writeOffset t.offset_lt
  rw [readSpelled, write]
  simp only [List.append_assoc, List.cons_append, hyear, hmonth, hday, hhour, hminute, hsecond,
    hseparator, hfraction, hoffset, readLiteral, bind, Except.bind, if_true]
  rfl

theorem parse_toText (t : Timestamp) : parse t.toText = .ok t := by
  have hsecond : t.spelled.second ≠ 60 := Nat.ne_of_lt t.second_lt
  rw [parse, toText, String.toList_ofList, readSpelled_write]
  simp only [bind, Except.bind, hsecond, if_false, ofSpelled_spelled]

end ResourceAudit.Timestamp
