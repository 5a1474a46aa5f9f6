/-!
# Digits

The numbers that runs of digits stand for, in decimal and in other bases up to sixteen.
-/

namespace ResourceAudit.Text

def digitValue (c : Char) : Nat := c.toNat - '0'.toNat

def appendDigits (n : Nat) (ds : List Char) : Nat :=
  ds.foldl (fun n d => n * 10 + digitValue d) n

def decimal (ds : List Char) : Nat := appendDigits 0 ds

def hexDigit? (c : Char) : Option Nat :=
  if '0' ≤ c ∧ c ≤ '9' then some (c.toNat - '0'.toNat)
  else if 'a' ≤ c ∧ c ≤ 'f' then some (c.toNat - 'a'.toNat + 10)
  else if 'A' ≤ c ∧ c ≤ 'F' then some (c.toNat - 'A'.toNat + 10)
  else none

def isDigitIn (base : Nat) (c : Char) : Bool := (hexDigit? c).any (· < base)

/-- The number of a run of digits of a base up to sixteen. -/
def numberIn (base : Nat) (ds : List Char) : Nat :=
  ds.foldl (fun n d => n * base + (hexDigit? d).getD 0) 0

end ResourceAudit.Text
