/-!
# Floating-point numbers

A number of double precision, taken apart: its sign and, if it is finite and not zero, its
mantissa and the power of two that belongs to it.
-/

namespace AppScaffold

/-- The size of a finite number other than zero: `mantissa · 2 ^ exponent`. -/
structure Magnitude where
  /-- A whole number below `2 ^ 53`. -/
  mantissa : Nat
  /-- The power of two. -/
  exponent : Int
  /-- The neighbour below is only half as far away as the one above. -/
  narrowBelow : Bool
deriving DecidableEq, Repr

/-- A number of double precision. -/
inductive Double where
  /-- Zero with its sign. -/
  | zero (negative : Bool)
  /-- A finite number other than zero. -/
  | finite (negative : Bool) (size : Magnitude)
  /-- Beyond all finite numbers. -/
  | infinite (negative : Bool)
  /-- No number. -/
  | nan
deriving DecidableEq, Repr

namespace Double

/-- The number that sixty-four bits stand for. -/
def ofBits (bits : UInt64) : Double :=
  let n : Nat := bits.toNat
  let negative : Bool := 0x8000000000000000 ≤ n
  let power : Nat := n / Nat.pow 2 52 % 2048
  let fraction : Nat := n % Nat.pow 2 52
  if power = 2047 then (if fraction = 0 then infinite negative else nan)
  else if power = 0 then
    (if fraction = 0 then zero negative else finite negative ⟨fraction, -1074, false⟩)
  else finite negative ⟨Nat.pow 2 52 + fraction, Int.ofNat power - 1075, fraction = 0 && 1 < power⟩

/-- The number behind a floating-point value. -/
def ofFloat (x : Float) : Double := ofBits x.toBits

end Double

end AppScaffold
