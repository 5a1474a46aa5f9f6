import ResourceAudit.Decimal.Shortest

/-!
# Writing doubles

The shortest digits of a double, laid out in positional notation or with an exponent. A `Layout`
says where positional notation ends; a whole number keeps `.0` behind it.
-/

namespace ResourceAudit.Decimal

/-- Which numbers are written in positional notation: those whose first digit has an exponent in
this range. A missing end does not bound it. -/
structure Layout where
  least : Option Int
  greatest : Option Int

def Layout.json : Layout := ⟨some (-5), some 15⟩

def Layout.positional : Layout := ⟨none, none⟩

def Layout.isPositional (l : Layout) (exponent : Int) : Bool :=
  l.least.all (· ≤ exponent) && l.greatest.all (exponent ≤ ·)

def withoutTrailingZeros (ds : List Char) : List Char :=
  (ds.reverse.dropWhile (· == '0')).reverse

def zeros (n : Nat) : List Char := List.replicate n '0'

/-- Digits with a point behind the first `whole` of them, filled up with zeros. -/
def writePositional (ds : List Char) (whole : Int) : List Char :=
  if whole ≤ 0 then '0' :: '.' :: zeros (-whole).toNat ++ ds
  else
    let n := whole.toNat
    if ds.length ≤ n then ds ++ zeros (n - ds.length) ++ ['.', '0']
    else ds.take n ++ '.' :: ds.drop n

/-- Digits with a point behind the first, and the exponent of the first with its sign. -/
def writeScientific (ds : List Char) (exponent : Int) : List Char :=
  let mantissa := match ds with
    | d :: e :: rest => d :: '.' :: e :: rest
    | ds => ds
  mantissa ++ 'e' :: (if exponent < 0 then '-' else '+') :: Nat.toDigits 10 exponent.natAbs

def Layout.write (l : Layout) (d : Scientific) : List Char :=
  let all := Nat.toDigits 10 d.digits
  let exponent := d.exponent + all.length - 1
  let ds := withoutTrailingZeros all
  if l.isPositional exponent then writePositional ds (exponent + 1)
  else writeScientific ds exponent

/-- A finite double in this layout. Zero keeps its sign. -/
def Layout.double (l : Layout) (f : Float) : List Char :=
  let v := magnitude f
  let digits := if v.mantissa = 0 then ['0', '.', '0'] else l.write v.shortest
  if isNegative f then '-' :: digits else digits

end ResourceAudit.Decimal
