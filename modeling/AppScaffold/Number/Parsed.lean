import AppScaffold.Number.Double

/-!
# Reading decimals

A decimal with any number of digits and any power of ten is taken to the nearest floating-point
number. Powers of ten that are far out of range are settled without being computed.
-/

namespace AppScaffold

/-- The number that digits write, `value` standing for those before. -/
def digitsValue (value : Nat) (digits : List Char) : Nat :=
  digits.foldl (fun n c => 10 * n + (c.toNat - 48)) value

namespace Double

/-- The floating-point number nearest to `digits · 10 ^ exponent`. -/
def ofDecimal (negative : Bool) (digits : Nat) (exponent : Int) : Double :=
  let place : Int := exponent + (toString digits).length
  if digits = 0 || place < -330 then zero negative
  else if 330 < place then infinite negative
  else
    let x :=
      if 0 ≤ exponent then Float.ofScientific (digits * Nat.pow 10 exponent.toNat) false 0
      else Float.ofScientific digits true (-exponent).toNat
    ofFloat (if negative then -x else x)

end Double

/-- The parts of a decimal: its digits before and behind the point, and its power of ten. -/
structure DecimalParts where
  /-- A minus stands in front. -/
  negative : Bool
  /-- The digits before the point. -/
  whole : List Char
  /-- The digits behind the point. -/
  fraction : List Char
  /-- The power of ten. -/
  exponent : Int

/-- The floating-point number of the parts. -/
def DecimalParts.toDouble (p : DecimalParts) : Double :=
  .ofDecimal p.negative (digitsValue (digitsValue 0 p.whole) p.fraction)
    (p.exponent - p.fraction.length)

/-- A sign in front of characters; true for a minus. -/
def takeSign : List Char → Bool × List Char
  | '-' :: cs => (true, cs)
  | '+' :: cs => (false, cs)
  | cs => (false, cs)

/-- The whole number that digits behind a sign write. -/
def signedDigits (cs : List Char) : Option Int :=
  let (negative, digits) := takeSign cs
  if digits.isEmpty || !digits.all Char.isDigit then none
  else
    let n : Int := digitsValue 0 digits
    some (if negative then -n else n)

/-- The decimal that characters write: digits with an optional sign, point and power of ten; there
is a digit before or behind the point. -/
def DecimalParts.ofChars (cs : List Char) : Option DecimalParts :=
  let (negative, cs) := takeSign cs
  let whole := cs.takeWhile Char.isDigit
  let cs := cs.dropWhile Char.isDigit
  let (fraction, cs) := match cs with
    | '.' :: cs => (cs.takeWhile Char.isDigit, cs.dropWhile Char.isDigit)
    | cs => ([], cs)
  if whole.isEmpty && fraction.isEmpty then none
  else match cs with
    | [] => some ⟨negative, whole, fraction, 0⟩
    | c :: cs =>
      if c = 'e' || c = 'E' then
        (signedDigits cs).map fun power => ⟨negative, whole, fraction, power⟩
      else none

end AppScaffold
