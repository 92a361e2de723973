import AppScaffold.Json.Failure

/-!
# Reading from left to right

A reader takes characters from what is left of a document. Failures are placed at the octets that
have been taken, or behind the octet that was looked at.
-/

namespace AppScaffold.Json

/-- What is left of a document. -/
structure Cursor where
  /-- The characters that are left. -/
  rest : List Char
  /-- The number of octets before them. -/
  index : Nat

/-- The beginning of a document. -/
def Cursor.start (document : String) : Cursor := ⟨document.toList, 0⟩

/-- The number of octets up to and including the next one. -/
def Cursor.peeked (c : Cursor) : Nat := if c.rest.isEmpty then c.index else c.index + 1

/-- A reader of a value. -/
abbrev Reader (α : Type) := StateT Cursor (Except Failure) α

namespace Reader

variable {α : Type}

/-- Fail at the octets that have been taken. -/
def fail (cause : Cause) : Reader α := fun c => .error ⟨cause, c.index⟩

/-- Fail behind the next octet. -/
def failNext (cause : Cause) : Reader α := fun c => .error ⟨cause, c.peeked⟩

/-- The next character, which stays. -/
def peek : Reader (Option Char) := fun c => .ok (c.rest.head?, c)

/-- Take the next character. -/
def eat : Reader Unit := fun c =>
  match c.rest with
  | [] => .ok ((), c)
  | x :: xs => .ok ((), ⟨xs, c.index + x.utf8Size⟩)

/-- A space, a tab, or the end of a line. -/
def isSpace (c : Char) : Bool := c == ' ' || c == '\n' || c == '\t' || c == '\r'

/-- Take the characters with a property that only ASCII characters have. -/
def takeAscii (p : Char → Bool) : Reader (List Char) := fun c =>
  let taken := c.rest.takeWhile p
  .ok (taken, ⟨c.rest.dropWhile p, c.index + taken.length⟩)

/-- Pass over spaces and look at what follows. -/
def next : Reader (Option Char) := do
  let _ ← takeAscii isSpace
  peek

/-- Take the characters of a word. -/
def word : List Char → Reader Unit
  | [] => pure ()
  | x :: xs => do
    match ← peek with
    | none => fail .endInValue
    | some c => if c = x then do eat; word xs else failNext .noWord

/-- Nothing but spaces is left. -/
def finish : Reader Unit := do
  match ← next with
  | none => pure ()
  | some _ => failNext .trailingCharacters

/-- Read a whole document. -/
def run (r : Reader α) (document : String) : Except Failure α :=
  match (do let a ← r; finish; return a : Reader α) (.start document) with
  | .ok (a, _) => .ok a
  | .error e => .error e

end Reader

end AppScaffold.Json
