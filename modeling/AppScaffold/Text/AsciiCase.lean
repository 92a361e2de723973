/-!
# Comparison without regard to ASCII case

Only the letters `A` to `Z` and `a` to `z` are taken for one another; every other character must be
the same.
-/

namespace AppScaffold.Text

/-- The text with small letters for the ASCII capitals. -/
def asciiLower (s : String) : String := String.ofList (s.toList.map Char.toLower)

/-- The text with capitals for the small ASCII letters. -/
def asciiUpper (s : String) : String := String.ofList (s.toList.map Char.toUpper)

/-- Both texts are the same up to the case of ASCII letters. -/
def sameUpToCase (s t : String) : Bool := s.toList.map Char.toLower == t.toList.map Char.toLower

/-- A text is the same as itself. -/
theorem sameUpToCase_refl (s : String) : sameUpToCase s s = true := by simp [sameUpToCase]

end AppScaffold.Text
