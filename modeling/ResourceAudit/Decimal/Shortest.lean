import ResourceAudit.Decimal.Power

/-!
# The fewest digits that read back

A finite double is `mantissa * 2 ^ exponent`. A decimal reads back as that double when it lies
between the midpoints to its two neighbours, a midpoint itself only where the mantissa is even.
`Binary.shortest` looks for such a decimal on the grids of the powers of ten, the coarsest
first; on a grid it takes the nearer of the two points around the value.
-/

namespace ResourceAudit.Decimal

/-- A positive number `mantissa * 2 ^ exponent`. -/
structure Binary where
  mantissa : Nat
  exponent : Int
deriving DecidableEq, Repr

/-- A number `digits * 10 ^ exponent`. -/
structure Scientific where
  digits : Nat
  exponent : Int
deriving DecidableEq, Repr

/-! ## Doubles -/

/-- The magnitude of a finite double, from its bits. -/
def magnitude (f : Float) : Binary :=
  let bits := f.toBits.toNat
  let fraction := bits % twoTo 52
  let biased := bits / twoTo 52 % twoTo 11
  if biased = 0 then ⟨fraction, -1074⟩ else ⟨twoTo 52 + fraction, Int.ofNat biased - 1075⟩

def isNegative (f : Float) : Bool := f.toBits.toNat / twoTo 63 = 1

/-! ## Comparing across bases -/

/-- `a * 10 ^ i` against `b * 2 ^ j`. -/
def compare (a : Nat) (i : Int) (b : Nat) (j : Int) : Ordering :=
  Ord.compare (a * tenTo i.toNat * twoTo (-j).toNat) (b * twoTo j.toNat * tenTo (-i).toNat)

/-- Four times the value reaches from `fst` to `snd` quarter steps. Below a power of two the
neighbour is only half as far. -/
def Binary.quarters (v : Binary) : Nat × Nat :=
  (4 * v.mantissa - (if v.mantissa = twoTo 52 ∧ v.exponent ≠ -1074 then 1 else 2),
    4 * v.mantissa + 2)

def Binary.admits (v : Binary) (d : Scientific) : Bool :=
  let even := v.mantissa % 2 = 0
  let low := Decimal.compare d.digits d.exponent v.quarters.1 (v.exponent - 2)
  let high := Decimal.compare d.digits d.exponent v.quarters.2 (v.exponent - 2)
  (low == .gt || (low == .eq && even)) && (high == .lt || (high == .eq && even))

/-! ## Grids -/

/-- The greatest multiple of `10 ^ i` that is at most the value, as its count of grid steps. -/
def Binary.floorOn (v : Binary) (i : Int) : Nat :=
  v.mantissa * twoTo v.exponent.toNat * tenTo (-i).toNat /
    (tenTo i.toNat * twoTo (-v.exponent).toNat)

/-- The point on the grid of `10 ^ i` that reads back, if there is one: the nearer of the two
around the value, and of two equally near the even one. -/
def Binary.onGrid? (v : Binary) (i : Int) : Option Scientific :=
  let below : Scientific := ⟨v.floorOn i, i⟩
  let above : Scientific := ⟨v.floorOn i + 1, i⟩
  let middle := Decimal.compare (2 * below.digits + 1) i (2 * v.mantissa) v.exponent
  match v.admits below, v.admits above with
  | true, true =>
    match middle with
    | .gt => some below
    | .lt => some above
    | .eq => if below.digits % 2 = 0 then some below else some above
  | true, false => some below
  | false, true => some above
  | false, false => none

/-- A power of ten above the value: `3 / 10` and `31 / 100` enclose the logarithm of two. -/
def Binary.ceiling (v : Binary) : Int :=
  let bits := v.exponent + 53
  (if bits < 0 then bits * 3 / 10 else bits * 31 / 100) + 1

/-- The value written out, which always reads back. -/
def Binary.exact (v : Binary) : Scientific :=
  if v.exponent < 0 then ⟨v.mantissa * Nat.pow 5 (-v.exponent).toNat, v.exponent⟩
  else ⟨v.mantissa * twoTo v.exponent.toNat, 0⟩

/-- How many grids are looked at, from the one above the value down. Seventeen digits always
suffice, and the first grids may be too coarse by the slack in `ceiling`. -/
def gridCount : Nat := 60

/-- The shortest decimal that reads back, on the coarsest grid that holds one. -/
def Binary.shortest (v : Binary) : Scientific :=
  ((List.range gridCount).findSome? fun (n : Nat) => v.onGrid? (v.ceiling - n)).getD v.exact

end ResourceAudit.Decimal
