import AppScaffold.Text.Numeric
import AppScaffold.Text.LetterCase
import AppScaffold.Text.Lowercase

/-!
# Names of artifacts

A name is written in several ways: as a type name, as a variable, as a title and as a segment of an
address. A word begins after a separator, after a digit, and at a capital that follows a small
letter.
-/

namespace AppScaffold.Name

open AppScaffold.Text

/-- How the words of a name are written when they are put together again. -/
structure WordStyle where
  /-- The first word begins with a capital. -/
  capitalFirst : Bool
  /-- A space stands between the words. -/
  spaced : Bool

/-- What has been seen of a name while its words are being found. -/
structure WordScan where
  /-- Something alphanumeric has been seen. -/
  started : Bool
  /-- The next letter begins a word. -/
  wordStart : Bool
  /-- No letter has begun a word so far. -/
  firstWord : Bool
  /-- The last letter that stood inside a word, a space before there was one. -/
  last : Char

/-- The scan of a name that has not begun. -/
def WordStyle.start (style : WordStyle) : WordScan := ⟨false, style.capitalFirst, true, ' '⟩

/-- What one character contributes, and the scan after it. Separators before the first
alphanumeric character are dropped, later ones begin a word. -/
def WordStyle.step (style : WordStyle) (scan : WordScan) (c : Char) : List Char × WordScan :=
  if !isAlphanumeric c then ([], { scan with wordStart := scan.wordStart || scan.started })
  else if isNumeric c then ([c], { scan with started := true, wordStart := true })
  else if scan.wordStart || (isLowercase scan.last && isUppercase c) then
    let gap := if style.spaced && !scan.firstWord then [' '] else []
    (gap ++ [c.toUpper], { scan with started := true, wordStart := false, firstWord := false })
  else ([c.toLower], { scan with started := true, last := c })

/-- The words of the characters, put together. -/
def WordStyle.write (style : WordStyle) (scan : WordScan) : List Char → List Char
  | [] => []
  | c :: cs => (style.step scan c).1 ++ style.write (style.step scan c).2 cs

/-- The name in a style. -/
def WordStyle.apply (style : WordStyle) (name : String) : String :=
  String.ofList (style.write style.start name.toList)

/-- Words joined without a gap, each with a capital: `UserProfile`. -/
def pascal (name : String) : String := (WordStyle.mk true false).apply name

/-- As `pascal`, but the first word begins small: `userProfile`. -/
def camel (name : String) : String := (WordStyle.mk false false).apply name

/-- Words with a space between them, each with a capital: `User Profile`. -/
def title (name : String) : String := (WordStyle.mk true true).apply name

/-- The segment that stands for the name in an address: all in lowercase. -/
def route (name : String) : String := lowercase name

/-- The characters can follow the first one of an identifier. -/
def isIdentifierTail (c : Char) : Bool := c.isAlphanum || c == '_'

/-- The characters form an identifier: an ASCII letter, then ASCII letters, digits and
underscores. -/
def isIdentifierChars : List Char → Bool
  | [] => false
  | c :: cs => c.isAlpha && cs.all isIdentifierTail

/-- The name can be a variable in a script and the stem of a file name. -/
def isIdentifier (name : String) : Bool := isIdentifierChars name.toList

end AppScaffold.Name
