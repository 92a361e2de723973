import AppScaffold.Text.Scanner

/-!
# Lines of configuration files

The blanks, comments and ends of lines between the parts of a file. The ends of lines are brought
to one form before scanning begins.
-/

namespace AppScaffold.Toml

/-- The characters with each line ended by a line feed alone. -/
def unifyLines : List Char → List Char
  | '\r' :: '\n' :: cs => '\n' :: unifyLines cs
  | c :: cs => c :: unifyLines cs
  | [] => []

/-- A space or a tab. -/
def isSpace (c : Char) : Bool := c == ' ' || c == '\t'

/-- A space, a tab, or the end of a line. -/
def isGap (c : Char) : Bool := isSpace c || c == '\n'

/-- A character that can stand in a comment. -/
def isPrintable (c : Char) : Bool := c == '\t' || (0x20 ≤ c.toNat && c.toNat ≠ 0x7f)

/-- No more characters are left when some have been dropped. -/
theorem length_dropWhile_le (p : Char → Bool) (cs : List Char) :
    (cs.dropWhile p).length ≤ cs.length :=
  (List.dropWhile_suffix p).length_le

open Text.Scanner

/-- Pass over a comment, if there is one. -/
def comment : Text.Scanner Unit := do
  if (← peek) = some '#' then pass isPrintable

/-- Pass over the end of a line or of the file. -/
def lineEnd : Text.Scanner Unit := do
  match ← peek with
  | none => pure ()
  | some '\n' => take ['\n']
  | some _ => malformed

/-- Pass over what may follow a statement. -/
def trailing : Text.Scanner Unit := do
  pass isSpace
  comment
  lineEnd

/-- Pass over spaces, comments and the ends of lines; no more than `fuel` comments. -/
def gaps : Nat → Text.Scanner Unit
  | 0 => malformed
  | fuel + 1 => do
    pass isGap
    if (← peek) = some '#' then
      comment
      lineEnd
      gaps fuel

end AppScaffold.Toml
