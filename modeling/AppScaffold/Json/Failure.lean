import AppScaffold.Number.Written
import AppScaffold.Text.Quoted
import AppScaffold.Text.Split

/-!
# Failures of reading

Why a document cannot be read, and where. Places are counted in octets from the start and are shown
as a line and a column.
-/

namespace AppScaffold.Json

/-- A number as it is read. -/
inductive Number where
  /-- A whole number that is not negative. -/
  | natural (n : Nat)
  /-- A negative whole number, without its sign. -/
  | negative (n : Nat)
  /-- Any other number. -/
  | double (x : Double)
deriving DecidableEq

/-- What stands in a place where something else is expected. -/
inductive Shape where
  /-- The word for nothing. -/
  | null
  /-- A truth value. -/
  | bool (b : Bool)
  /-- A number. -/
  | number (n : Number)
  /-- A text. -/
  | text (s : String)
  /-- A list. -/
  | list
  /-- An object. -/
  | object
deriving DecidableEq

/-- The shape in words. -/
def Shape.describe : Shape → String
  | null => "null"
  | bool b => "boolean `" ++ toString b ++ "`"
  | number (.natural n) => "integer `" ++ toString n ++ "`"
  | number (.negative n) => "integer `-" ++ toString n ++ "`"
  | number (.double x) => "floating point `" ++ x.text ++ "`"
  | text s => "string " ++ Text.quoted s
  | list => "sequence"
  | object => "map"

/-- Why a document cannot be read. -/
inductive Cause where
  /-- The document ends inside a list. -/
  | endInList
  /-- The document ends inside an object. -/
  | endInObject
  /-- The document ends inside a text. -/
  | endInText
  /-- The document ends where a value should be. -/
  | endInValue
  /-- No colon follows a key. -/
  | noColon
  /-- A list goes on with neither a comma nor its end. -/
  | noListEnd
  /-- An object goes on with neither a comma nor its end. -/
  | noObjectEnd
  /-- A word is misspelled. -/
  | noWord
  /-- There is no value. -/
  | noValue
  /-- No character is written like this. -/
  | badEscape
  /-- No number is written like this. -/
  | badNumber
  /-- The number is too large. -/
  | outOfRange
  /-- A control character stands in a text. -/
  | controlCharacter
  /-- A key is no text. -/
  | keyNoText
  /-- Half of a pair of code units stands alone. -/
  | loneSurrogate
  /-- A comma stands before the end of a list or object. -/
  | trailingComma
  /-- Something follows the end. -/
  | trailingCharacters
  /-- The second of two code units is missing. -/
  | endOfEscape
  /-- A value of another kind is expected. -/
  | mismatch (found : Shape) (expected : String)
  /-- The value is of the right kind but out of bounds. -/
  | unsuitable (found : Shape) (expected : String)
  /-- A list is too short. -/
  | tooShort (length : Nat) (expected : String)
  /-- A field is missing. -/
  | missingField (name : String)
  /-- A field occurs twice. -/
  | duplicateField (name : String)
deriving DecidableEq

/-- The cause in words. -/
def Cause.message : Cause → String
  | endInList => "EOF while parsing a list"
  | endInObject => "EOF while parsing an object"
  | endInText => "EOF while parsing a string"
  | endInValue => "EOF while parsing a value"
  | noColon => "expected `:`"
  | noListEnd => "expected `,` or `]`"
  | noObjectEnd => "expected `,` or `\x7d`"
  | noWord => "expected ident"
  | noValue => "expected value"
  | badEscape => "invalid escape"
  | badNumber => "invalid number"
  | outOfRange => "number out of range"
  | controlCharacter => "control character (\\u0000-\\u001F) found while parsing a string"
  | keyNoText => "key must be a string"
  | loneSurrogate => "lone leading surrogate in hex escape"
  | trailingComma => "trailing comma"
  | trailingCharacters => "trailing characters"
  | endOfEscape => "unexpected end of hex escape"
  | mismatch found expected => "invalid type: " ++ found.describe ++ ", expected " ++ expected
  | unsuitable found expected => "invalid value: " ++ found.describe ++ ", expected " ++ expected
  | tooShort length expected => "invalid length " ++ toString length ++ ", expected " ++ expected
  | missingField name => "missing field `" ++ name ++ "`"
  | duplicateField name => "duplicate field `" ++ name ++ "`"

/-- A cause with its place. -/
structure Failure where
  /-- The cause. -/
  cause : Cause
  /-- The number of octets before the place. -/
  index : Nat
deriving DecidableEq

/-- The line, and the octets in it, after so many more octets. -/
def place (line column : Nat) : Nat → List Char → Nat × Nat
  | _, [] => (line, column)
  | left, c :: cs =>
    if left = 0 then (line, column)
    else if c = '\n' then place (line + 1) 0 (left - 1) cs
    else place line (column + min c.utf8Size left) (left - c.utf8Size) cs

/-- The failure in words, for the document in which it occurred. -/
def Failure.message (f : Failure) (document : String) : String :=
  let (line, column) := place 1 0 f.index document.toList
  f.cause.message ++ " at line " ++ toString line ++ " column " ++ toString column

end AppScaffold.Json
