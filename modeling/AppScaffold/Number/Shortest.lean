import AppScaffold.Number.Double

/-!
# Shortest decimals

The decimal with the fewest digits that is nearer to a given floating-point number than to any
other one; of several such decimals the nearest. Everything is computed with whole numbers, in
quarters of the unit of the last binary place.
-/

namespace AppScaffold

/-- The number `digits · 10 ^ exponent`. -/
structure Decimal where
  /-- The digits as a whole number. -/
  digits : Nat
  /-- The power of ten. -/
  exponent : Int
deriving DecidableEq, Repr

namespace Decimal

/-- The decimal without zeros at the end of its digits; no more than `fuel` are taken away. -/
def trimZeros : Nat → Decimal → Decimal
  | 0, d => d
  | fuel + 1, d =>
    if d.digits ≠ 0 && d.digits % 10 = 0 then trimZeros fuel ⟨d.digits / 10, d.exponent + 1⟩ else d

end Decimal

/-- A fraction of whole numbers. -/
structure Fraction where
  /-- The numerator. -/
  num : Nat
  /-- The denominator. -/
  den : Nat

/-- The multiple of a power of the base, negative powers going into the denominator. -/
def Fraction.scale (f : Fraction) (base : Nat) (power : Int) : Fraction :=
  if 0 ≤ power then ⟨f.num * base.pow power.toNat, f.den⟩
  else ⟨f.num, f.den * base.pow (-power).toNat⟩

/-- The power of ten of the first digit: the greatest `k` with `10 ^ k` at most the fraction, `j`
being tried first and then all below. -/
def Fraction.firstPlace (f : Fraction) : Nat → Int → Int
  | 0, j => j
  | fuel + 1, j =>
    let g := f.scale 10 (-j)
    if g.den ≤ g.num then j else f.firstPlace fuel (j - 1)

namespace Magnitude

/-- So many quarters of the unit of the last binary place. -/
def quarters (m : Magnitude) (count : Nat) : Fraction := Fraction.scale ⟨count, 4⟩ 2 m.exponent

/-- A multiple of a power of ten rounds to the number. -/
def takes (m : Magnitude) (d : Decimal) : Bool :=
  let below := m.quarters (4 * m.mantissa - if m.narrowBelow then 1 else 2)
  let above := m.quarters (4 * m.mantissa + 2)
  let low := below.scale 10 (-d.exponent)
  let high := above.scale 10 (-d.exponent)
  if m.mantissa % 2 = 0 then low.num ≤ d.digits * low.den && d.digits * high.den ≤ high.num
  else low.num < d.digits * low.den && d.digits * high.den < high.num

/-- The best multiple of `10 ^ k`, if one rounds to the number: the nearer of the two neighbours,
and halfway between them the even one. -/
def onGrid (m : Magnitude) (k : Int) : Option Decimal :=
  let v := (m.quarters (4 * m.mantissa)).scale 10 (-k)
  let floor : Decimal := ⟨v.num / v.den, k⟩
  let ceiling : Decimal := ⟨v.num / v.den + 1, k⟩
  let twice := 2 * (v.num % v.den)
  let down := twice < v.den || (twice = v.den && floor.digits % 2 = 0)
  let (near, far) := if down then (floor, ceiling) else (ceiling, floor)
  if m.takes near then some near else if m.takes far then some far else none

/-- The best decimal on the first of the grids that has one; the grids become finer. -/
def search (m : Magnitude) : Nat → Int → Decimal
  | 0, k => (m.onGrid k).getD ⟨m.mantissa, 0⟩
  | fuel + 1, k =>
    match m.onGrid k with
    | some d => d
    | none => m.search fuel (k - 1)

/-- The shortest decimal. -/
def shortest (m : Magnitude) : Decimal :=
  let first := (m.quarters (4 * m.mantissa)).firstPlace 640 309
  (m.search 17 first).trimZeros 20

end Magnitude

end AppScaffold
