import AppScaffold.Script.Search
import AppScaffold.Text.WordCharacter

/-!
# The block of imports

An import begins at the start of a line with the word `import` and ends with the first line end
that follows a quoted module, with nothing between them but spaces, tabs and one semicolon.
-/

namespace AppScaffold.Script

/-- Spaces and tabs. -/
def isInlineBlank (c : Char) : Bool := c == ' ' || c == '\t'

/-- What follows the end of a line: a line feed, with or without a carriage return, or nothing. -/
def afterLineEnd : List Char → Option (List Char)
  | [] => some []
  | '\n' :: cs => some cs
  | '\r' :: '\n' :: cs => some cs
  | _ => none

/-- What follows the end of a line on which nothing is left but blanks and one semicolon. -/
def afterStatementEnd (cs : List Char) : Option (List Char) :=
  match cs.dropWhile isInlineBlank with
  | ';' :: cs => afterLineEnd (cs.dropWhile isInlineBlank)
  | cs => afterLineEnd cs

/-- What follows a text in the given quotes on one line, and the end of its line. -/
def afterQuoted (mark : Char) (cs : List Char) : Option (List Char) :=
  match cs.dropWhile fun c => c != mark && c != '\n' with
  | c :: cs => if c = mark then afterStatementEnd cs else none
  | [] => none

/-- What follows the first quoted module that ends its line. -/
def afterModule : List Char → Option (List Char)
  | [] => none
  | c :: cs =>
    match if c = '\x27' || c = '\x22' then afterQuoted c cs else none with
    | some rest => some rest
    | none => afterModule cs

/-- What follows an import that begins here, the character before being given. -/
def afterImport (before : Option Char) (cs : List Char) : Option (List Char) :=
  if before = none || before = some '\n' then
    match afterText "import".toList cs with
    | some rest => if rest.head?.any Text.isWordCharacter then none else afterModule rest
    | none => none
  else none

/-- The stretches of the imports of a script. -/
def importSpans (cs : List Char) : List Span := spans afterImport 0 0 none cs

/-- The place behind the last import that begins before `limit`. -/
def importBlockEnd (cs : List Char) (limit : Nat) : Option Nat :=
  (((importSpans cs).takeWhile fun span => span.start < limit).getLast?).map Span.stop

end AppScaffold.Script
