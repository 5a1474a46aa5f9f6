import ResourceAudit.Json.Basic
import ResourceAudit.Json.Fault
import ResourceAudit.Text.Digits

/-!
# Numerals

A numeral is an optional minus sign, an integer part without a leading zero, and then optionally
a fraction and an exponent. One without fraction and exponent that fits 64 bits is an integer.
Any other is a double: its digits are collected into a significand below `2 ^ 64`, which is then
scaled by a power of ten.
-/

namespace ResourceAudit.Json.Reader

/-! ## Digits -/

/-- The digits in front, and what follows them. -/
def digits (s : List Char) : List Char × List Char :=
  (s.takeWhile Char.isDigit, s.dropWhile Char.isDigit)

theorem length_digits_snd_le (s : List Char) : (digits s).2.length ≤ s.length :=
  (List.dropWhile_suffix _).length_le

/-- Digits appended to a significand while it stays below `UInt64.size`, and those that did not fit:
from the first that does not, none is taken. -/
def absorb (significand : Nat) : List Char → Nat × List Char
  | [] => (significand, [])
  | d :: ds =>
    let next := significand * 10 + Text.digitValue d
    if next < UInt64.size then absorb next ds else (significand, d :: ds)

/-! ## Scaling -/

def powerOfTen (n : Nat) : Float := Float.ofScientific 1 false n

/-- The largest power of ten that is a double is `10 ^ 308`. -/
def largestPower : Nat := 308

/-- `f` divided by `10 ^ n`, in steps no larger than the largest power of ten. -/
def scaleDown (f : Float) (n : Nat) : Float :=
  if n ≤ largestPower then f / powerOfTen n
  else if f == 0 then f
  else scaleDown (f / powerOfTen largestPower) (n - largestPower)
termination_by n
decreasing_by simp only [largestPower] at *; omega

/-- `f` times `10 ^ n`, where that is finite. -/
def scaleUp (f : Float) (n : Nat) : Option Float :=
  if n ≤ largestPower then
    let x := f * powerOfTen n
    if x.isInf then none else some x
  else if f == 0 then some f
  else none

/-- `significand` times `10 ^ exponent`, where that is finite. -/
def scale (significand : Nat) : Int → Option Float
  | .ofNat n => scaleUp (Float.ofNat significand) n
  | .negSucc n => some (scaleDown (Float.ofNat significand) (n + 1))

/-! ## Reading -/

/-- A sign, digits and a power of ten: the number before it is rounded to a double. -/
structure Decimal where
  negative : Bool
  significand : Nat
  exponent : Int

/-- The double for a decimal; `rest` is what follows its last digit. -/
def Decimal.toFloat (d : Decimal) (rest : List Char) : Except Fault Float :=
  match scale d.significand d.exponent with
  | some f => .ok (if d.negative then -f else f)
  | none => .error (.before .numberOutOfRange rest)

def greatestExponent : Nat := UInt32.size / 2 - 1

/-- What follows the digit at which a spelled exponent grows beyond the largest, if one does. -/
def overrun? (exponent : Nat) : List Char → Option (List Char)
  | [] => none
  | d :: rest =>
    let next := exponent * 10 + Text.digitValue d
    if d.isDigit then
      if next ≤ greatestExponent then overrun? next rest else some rest
    else none

/-- The sign in front of an exponent: whether it is a minus, and what follows it. -/
def exponentSign : List Char → Bool × List Char
  | '+' :: t => (false, t)
  | '-' :: t => (true, t)
  | t => (false, t)

/-- Reads an exponent, from behind its sign. One that is too large to be spelled is an error only
where it makes the number infinite; else the number is zero. -/
def exponentDigits (d : Decimal) (down : Bool) (t : List Char) : Except Fault (Number × List Char) :=
  match t with
  | [] => .error (.before .valueUnfinished [])
  | c :: _ =>
    if c.isDigit then
      let rest := (digits t).2
      match overrun? 0 t with
      | some behind =>
        if d.significand != 0 && !down then .error (.before .numberOutOfRange behind)
        else .ok (.float (if d.negative then -0.0 else 0.0), rest)
      | none =>
        let spelled : Int := Text.decimal (digits t).1
        { d with exponent := if down then d.exponent - spelled else d.exponent + spelled }.toFloat rest
          |>.map fun f => (.float f, rest)
    else .error (.behind .invalidNumber t)

/-- Reads an exponent, from behind its `e`. -/
def exponentPart (d : Decimal) (s : List Char) : Except Fault (Number × List Char) :=
  exponentDigits d (exponentSign s).1 (exponentSign s).2

def double (d : Decimal) (s : List Char) : Except Fault (Number × List Char) :=
  match s with
  | 'e' :: t => exponentPart d t
  | 'E' :: t => exponentPart d t
  | _ => (d.toFloat s).map fun f => (.float f, s)

/-- Reads a fraction, from behind its point. Digits that the significand cannot take are lost. -/
def fractionPart (d : Decimal) (s : List Char) : Except Fault (Number × List Char) :=
  match (digits s).1 with
  | [] => .error (.behind (if s.isEmpty then .valueUnfinished else .invalidNumber) s)
  | ds =>
    let (significand, left) := absorb d.significand ds
    let taken : Nat := ds.length - left.length
    double { d with significand, exponent := d.exponent - taken } (digits s).2

/-- The integer of 64 bits with this sign and magnitude. Zero with a minus sign is none. -/
def integer? (negative : Bool) (n : Nat) : Option Int :=
  if negative then if n = 0 || n > UInt64.size / 2 then none else some (-n) else some n

/-- Reads what follows the digits of an integer part. Digits that the significand cannot take
raise the exponent. -/
def integerPart (negative : Bool) (ds rest : List Char) : Except Fault (Number × List Char) :=
  let (significand, left) := absorb 0 ds
  let d : Decimal := ⟨negative, significand, left.length⟩
  match rest with
  | '.' :: t => fractionPart d t
  | 'e' :: t => exponentPart d t
  | 'E' :: t => exponentPart d t
  | _ =>
    match left, integer? negative significand with
    | [], some n => .ok (.int n, rest)
    | _, _ => (d.toFloat rest).map fun f => (.float f, rest)

/-- Reads a numeral, from behind its sign. -/
def unsigned (negative : Bool) (s : List Char) : Except Fault (Number × List Char) :=
  match s with
  | [] => .error (.before .valueUnfinished [])
  | '0' :: rest =>
    match rest with
    | c :: _ =>
      if c.isDigit then .error (.behind .invalidNumber rest) else integerPart negative ['0'] rest
    | [] => integerPart negative ['0'] []
  | c :: _ =>
    if c.isDigit then integerPart negative (digits s).1 (digits s).2
    else .error (.behind .invalidNumber s)

def numeral (s : List Char) : Except Fault (Number × List Char) :=
  match s with
  | '-' :: t => unsigned true t
  | _ => unsigned false s

/-! ## A numeral takes at least one character -/

theorem length_exponentSign_le (s : List Char) : (exponentSign s).2.length ≤ s.length := by
  unfold exponentSign
  split <;> simp

theorem rest_of_map_toFloat {d : Decimal} {s rest : List Char} {n : Number}
    (h : ((d.toFloat s).map fun f => (Number.float f, s)) = .ok (n, rest)) : rest = s := by
  cases hf : d.toFloat s with
  | error e => simp [hf, Except.map] at h
  | ok f => simp [hf, Except.map] at h; exact h.2.symm

theorem exponentDigits_length_le {d : Decimal} {down : Bool} {t rest : List Char} {n : Number}
    (h : exponentDigits d down t = .ok (n, rest)) : rest.length ≤ t.length := by
  have hd := length_digits_snd_le t
  unfold exponentDigits at h
  split at h
  · simp at h
  · split at h
    · split at h
      · split at h
        · simp at h
        · simp at h; rw [← h.2]; exact hd
      · rw [rest_of_map_toFloat h]; exact hd
    · simp at h

theorem exponentPart_length_le {d : Decimal} {s rest : List Char} {n : Number}
    (h : exponentPart d s = .ok (n, rest)) : rest.length ≤ s.length :=
  Nat.le_trans (exponentDigits_length_le h) (length_exponentSign_le s)

theorem double_length_le {d : Decimal} {s rest : List Char} {n : Number}
    (h : double d s = .ok (n, rest)) : rest.length ≤ s.length := by
  unfold double at h
  split at h
  · exact Nat.le_succ_of_le (exponentPart_length_le h)
  · exact Nat.le_succ_of_le (exponentPart_length_le h)
  · exact Nat.le_of_eq (by rw [rest_of_map_toFloat h])

theorem fractionPart_length_le {d : Decimal} {s rest : List Char} {n : Number}
    (h : fractionPart d s = .ok (n, rest)) : rest.length ≤ s.length := by
  unfold fractionPart at h
  split at h
  · simp at h
  · exact Nat.le_trans (double_length_le h) (length_digits_snd_le s)

theorem integerPart_length_le {negative : Bool} {ds s rest : List Char} {n : Number}
    (h : integerPart negative ds s = .ok (n, rest)) : rest.length ≤ s.length := by
  unfold integerPart at h
  simp only at h
  split at h
  · exact Nat.le_succ_of_le (fractionPart_length_le h)
  · exact Nat.le_succ_of_le (exponentPart_length_le h)
  · exact Nat.le_succ_of_le (exponentPart_length_le h)
  · split at h
    · simp at h; exact Nat.le_of_eq (by rw [← h.2])
    · exact Nat.le_of_eq (by rw [rest_of_map_toFloat h])

theorem unsigned_length_lt {negative : Bool} {s rest : List Char} {n : Number}
    (h : unsigned negative s = .ok (n, rest)) : rest.length < s.length := by
  unfold unsigned at h
  split at h
  · simp at h
  · split at h
    · split at h
      · simp at h
      · exact Nat.lt_succ_of_le (integerPart_length_le h)
    · exact Nat.lt_succ_of_le (integerPart_length_le h)
  · split at h
    · rename_i c r _ hc
      have : (digits (c :: r)).2 = r.dropWhile Char.isDigit := by simp [digits, hc]
      rw [this] at h
      exact Nat.lt_succ_of_le
        (Nat.le_trans (integerPart_length_le h) (List.dropWhile_suffix _).length_le)
    · simp at h

theorem numeral_length_lt {s rest : List Char} {n : Number}
    (h : numeral s = .ok (n, rest)) : rest.length < s.length := by
  unfold numeral at h
  split at h
  · exact Nat.lt_succ_of_lt (unsigned_length_lt h)
  · exact unsigned_length_lt h

end ResourceAudit.Json.Reader
