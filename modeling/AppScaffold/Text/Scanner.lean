/-!
# Scanners

A scanner takes characters from the front of what is left of a text and gives a value, or finds
that the text is malformed.
-/

namespace AppScaffold.Text

/-- A scanner of a value. -/
abbrev Scanner (α : Type) := StateT (List Char) Option α

namespace Scanner

variable {α : Type}

/-- The text is malformed. -/
def malformed : Scanner α := fun _ => none

/-- The next character, which stays. -/
def peek : Scanner (Option Char) := fun cs => some (cs.head?, cs)

/-- Take the characters with a property. -/
def takeWhile (p : Char → Bool) : Scanner (List Char) := fun cs =>
  some (cs.takeWhile p, cs.dropWhile p)

/-- Pass over the characters with a property. -/
def pass (p : Char → Bool) : Scanner Unit := fun cs => some ((), cs.dropWhile p)

/-- Take the given characters, if they come next. -/
def take? (expected : List Char) : Scanner Bool := fun cs =>
  if expected.isPrefixOf cs then some (true, cs.drop expected.length) else some (false, cs)

/-- Take the given characters, which must come next. -/
def take (expected : List Char) : Scanner Unit := do
  if ← take? expected then pure () else malformed

/-- Scan a whole text. -/
def run (s : Scanner α) (cs : List Char) : Option α :=
  match s cs with
  | some (a, []) => some a
  | _ => none

end Scanner

end AppScaffold.Text
