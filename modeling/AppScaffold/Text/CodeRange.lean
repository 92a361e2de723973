/-!
# Ranges of code points

Properties of characters are given by tables of code points: plain ranges, and progressions for
the scripts in which capital and small letters alternate. All tables are those of version 16.0 of
the character standard.
-/

namespace AppScaffold.Text

/-- One of the ranges, ends included, holds the code point. -/
def inRanges (ranges : List (Nat × Nat)) (n : Nat) : Bool :=
  ranges.any fun r => r.1 ≤ n && n ≤ r.2

/-- The code points from `first` to `last` in steps of `step`. -/
structure CodeRange where
  /-- The least code point of the progression. -/
  first : Nat
  /-- The greatest code point of the progression. -/
  last : Nat
  /-- The distance between neighbours. -/
  step : Nat

/-- The code point is a member of the progression. -/
def CodeRange.has (r : CodeRange) (n : Nat) : Bool :=
  r.first ≤ n && n ≤ r.last && (n - r.first) % r.step == 0

/-- What holds of the first 128 code points holds of every ASCII character. -/
theorem of_ascii {P : Char → Prop} (h : ∀ n, n < 128 → P (Char.ofNat n)) {c : Char}
    (hc : c.toNat < 128) : P c := by
  have hp := h c.toNat hc
  rwa [Char.ofNat_toNat] at hp

end AppScaffold.Text
