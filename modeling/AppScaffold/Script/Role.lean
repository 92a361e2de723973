/-!
# Roles of characters in a script

A script is read from left to right into comments, strings and single characters of code. Each
character gets the role that it plays in this reading. A comment or string that is never closed
runs to the end of the script.
-/

namespace AppScaffold.Script

/-- What a character is part of. -/
inductive Role where
  /-- A character of code outside comments and strings. -/
  | code
  /-- The first character of a comment. -/
  | commentStart
  /-- A later character of a comment. -/
  | comment
  /-- The quote that opens a string. -/
  | quoteStart
  /-- A character inside a string. -/
  | quoted
  /-- The quote that closes a string. -/
  | quoteEnd
deriving DecidableEq, Repr

/-- Where the reader stands between two characters. -/
inductive Mode where
  /-- Outside comments and strings. -/
  | code
  /-- In a comment that ends with the line. -/
  | line
  /-- Before the star that opens a block comment. -/
  | blockOpen
  /-- In a block comment. -/
  | block
  /-- Before the slash that closes a block comment. -/
  | blockClose
  /-- In a string with this quote. -/
  | quote (mark : Char)
  /-- In a string with this quote, after a backslash. -/
  | escape (mark : Char)
deriving DecidableEq, Repr

/-- Strings stand in single, double or back quotes. -/
def isQuote (c : Char) : Bool := c == '\x22' || c == '\x27' || c == '\x60'

/-- The role of a character, and where the reader stands after it. Two slashes open a comment up to
the end of the line, a slash and a star one up to a star and a slash; in a string a backslash takes
the next character with it. -/
def Mode.step : Mode → Char → Option Char → Role × Mode
  | .code, c, next =>
    if c = '/' ∧ next = some '/' then (.commentStart, .line)
    else if c = '/' ∧ next = some '*' then (.commentStart, .blockOpen)
    else if isQuote c then (.quoteStart, .quote c)
    else (.code, .code)
  | .line, c, _ => if c = '\n' then (.code, .code) else (.comment, .line)
  | .blockOpen, _, _ => (.comment, .block)
  | .block, c, next => (.comment, if c = '*' ∧ next = some '/' then .blockClose else .block)
  | .blockClose, _, _ => (.comment, .code)
  | .quote mark, c, _ =>
    if c = '\\' then (.quoted, .escape mark)
    else if c = mark then (.quoteEnd, .code)
    else (.quoted, .quote mark)
  | .escape mark, _, _ => (.quoted, .quote mark)

/-- The characters with their roles, read from where the reader stands. -/
def roles (mode : Mode) : List Char → List (Char × Role)
  | [] => []
  | c :: cs => (c, (mode.step c cs.head?).1) :: roles (mode.step c cs.head?).2 cs

/-- The character does not stand strictly inside a comment or a string. -/
def Role.isBoundary : Role → Bool
  | .code | .commentStart | .quoteStart => true
  | .comment | .quoted | .quoteEnd => false

/-- Nothing that is read as one comment or string lies on both sides of the place. -/
def isCodeIndex (cs : List Char) (index : Nat) : Bool :=
  match (roles .code cs)[index]? with
  | some (_, role) => role.isBoundary
  | none => true

/-- Reading assigns a role to each character and changes none. -/
theorem map_fst_roles (mode : Mode) (cs : List Char) : (roles mode cs).map Prod.fst = cs := by
  induction cs generalizing mode with
  | nil => rfl
  | cons c cs ih => simp [roles, ih]

end AppScaffold.Script
