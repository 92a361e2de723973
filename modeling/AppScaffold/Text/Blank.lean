/-!
# Blank characters

The property White_Space of the character standard, version 16.0, and the text that is left when
blanks at both ends are taken away.
-/

namespace AppScaffold.Text

/-- A space of any width, a tab, or a character that ends a line or a paragraph. -/
def isBlank (c : Char) : Bool :=
  let n := c.toNat
  (9 ≤ n && n ≤ 13) || n == 0x20 || n == 0x85 || n == 0xa0 || n == 0x1680 ||
    (0x2000 ≤ n && n ≤ 0x200a) || n == 0x2028 || n == 0x2029 || n == 0x202f || n == 0x205f ||
    n == 0x3000

/-- The characters without the blanks at the end. -/
def trimEnd (cs : List Char) : List Char := (cs.reverse.dropWhile isBlank).reverse

/-- The characters without the blanks at both ends. -/
def trimChars (cs : List Char) : List Char := trimEnd (cs.dropWhile isBlank)

/-- The text without the blanks at both ends. -/
def trim (s : String) : String := String.ofList (trimChars s.toList)

/-- Text without blanks is not trimmed. -/
theorem trimChars_of_notMem {cs : List Char} (h : ∀ c ∈ cs, isBlank c = false) :
    trimChars cs = cs := by
  have hfront : cs.dropWhile isBlank = cs := by
    cases cs with
    | nil => rfl
    | cons c cs => exact List.dropWhile_cons_of_neg (by simp [h c List.mem_cons_self])
  have hback : cs.reverse.dropWhile isBlank = cs.reverse := by
    cases hcs : cs.reverse with
    | nil => rfl
    | cons c rest =>
      have hmem : c ∈ cs := by
        rw [← List.mem_reverse, hcs]
        exact List.mem_cons_self
      exact List.dropWhile_cons_of_neg (by simp [h c hmem])
  rw [trimChars, trimEnd, hfront, hback, List.reverse_reverse]

/-- A text without blanks is its own trimmed form. -/
theorem trim_of_notMem {s : String} (h : ∀ c ∈ s.toList, isBlank c = false) : trim s = s := by
  rw [trim, trimChars_of_notMem h, String.ofList_toList]

end AppScaffold.Text
