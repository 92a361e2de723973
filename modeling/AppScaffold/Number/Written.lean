import AppScaffold.Number.Shortest

/-!
# Floating-point numbers in text

Two ways to write a floating-point number with its shortest digits: one that never uses a power of
ten, and one that does so for very large and very small numbers.
-/

namespace AppScaffold

/-- So many zeros. -/
def zeros (n : Nat) : String := String.ofList (List.replicate n '0')

namespace Decimal

/-- The digits. -/
def digitText (d : Decimal) : String := toString d.digits

/-- The power of ten of the first digit. -/
def place (d : Decimal) : Int := d.exponent + d.digitText.length - 1

/-- Written with a decimal point where there is a fraction; `whole` follows a whole number. -/
def positional (d : Decimal) (whole : String) : String :=
  let text := d.digitText
  if 0 ≤ d.exponent then text ++ zeros d.exponent.toNat ++ whole
  else
    let places := (-d.exponent).toNat
    if text.length ≤ places then "0." ++ zeros (places - text.length) ++ text
    else
      String.ofList (text.toList.take (text.length - places)) ++ "." ++
        String.ofList (text.toList.drop (text.length - places))

/-- Written with one digit before the point and a power of ten of at least two digits. -/
def scientific (d : Decimal) : String :=
  let text := d.digitText
  let fraction := String.ofList (text.toList.drop 1)
  let power := d.place.natAbs
  String.ofList (text.toList.take 1) ++ (if fraction = "" then "" else "." ++ fraction) ++
    (if d.place < 0 then "e-" else "e+") ++ (if power < 10 then "0" else "") ++ toString power

end Decimal

namespace Double

/-- The sign in front of a number. -/
def sign (negative : Bool) : String := if negative then "-" else ""

/-- The text without powers of ten, whole numbers without a point. -/
def plain : Double → String
  | zero negative => sign negative ++ "0"
  | finite negative m => sign negative ++ m.shortest.positional ""
  | infinite negative => sign negative ++ "inf"
  | nan => "NaN"

/-- The text with a point in every number; beyond sixteen digits before the point and from the
sixth place behind it on, it is written with a power of ten. -/
def text : Double → String
  | zero negative => sign negative ++ "0.0"
  | finite negative m =>
    let d := m.shortest
    sign negative ++ (if -5 ≤ d.place && d.place ≤ 15 then d.positional ".0" else d.scientific)
  | infinite negative => sign negative ++ "inf"
  | nan => "NaN"

end Double

end AppScaffold
