import AppScaffold.Json.Number
import AppScaffold.Json.Text

/-!
# Values

Values of the kinds that are expected are read as they come. A value of another kind is read only
as far as it takes to say what it is, and a value that does not matter is passed over whatever its
kind.
-/

namespace AppScaffold.Json.Reader

variable {α : Type}

/-- What stands here, read as far as it takes to say so. -/
def shape : Reader Shape := do
  match ← peek with
  | some 'n' => eat; word "ull".toList; return .null
  | some 't' => eat; word "rue".toList; return .bool true
  | some 'f' => eat; word "alse".toList; return .bool false
  | some '-' => eat; return .number (← number true)
  | some '"' => eat; return .text (← text)
  | some '[' => return .list
  | some '\x7b' => return .object
  | some c => if c.isDigit then return .number (← number false) else failNext .noValue
  | none => failNext .noValue

/-- Fail because something else is expected. -/
def mismatch (expected : String) : Reader α := do
  let found ← shape
  fail (.mismatch found expected)

/-- The next character behind spaces; there has to be one. -/
def someNext : Reader Char := do
  match ← next with
  | some c => return c
  | none => failNext .endInValue

/-- Read a text. -/
def textValue : Reader String := do
  if (← someNext) = '\x22' then do eat; text else mismatch "a string"

/-- Read a truth value. -/
def boolValue : Reader Bool := do
  let c ← someNext
  if c = 't' then do eat; word "rue".toList; return true
  else if c = 'f' then do eat; word "alse".toList; return false
  else mismatch "a boolean"

/-- A number as a count of things. -/
def asCount : Number → Reader Nat
  | .natural n => pure n
  | .negative n => fail (.unsuitable (.number (.negative n)) "usize")
  | .double x => fail (.mismatch (.number (.double x)) "usize")

/-- Read a count of things. -/
def countValue : Reader Nat := do
  let c ← someNext
  if c = '-' then do eat; asCount (← number true)
  else if c.isDigit then do asCount (← number false)
  else mismatch "usize"

/-- Read a value or the word for nothing. -/
def orNull (r : Reader α) : Reader (Option α) := do
  if (← next) = some 'n' then do eat; word "ull".toList; return none else return some (← r)

/-- There is another item in a list; the comma before it is taken. -/
def anotherItem (first : Bool) : Reader Bool := do
  match ← next with
  | none => failNext .endInList
  | some ']' => return false
  | some c =>
    if first then return true
    else if c = ',' then do
      eat
      match ← next with
      | some ']' => failNext .trailingComma
      | some _ => return true
      | none => failNext .endInValue
    else failNext .noListEnd

/-- Take the end of a list whose items are complete. -/
def closeList : Reader Unit := do
  match ← next with
  | some ']' => eat
  | some ',' => do
    eat
    match ← next with
    | some ']' => failNext .trailingComma
    | _ => failNext .trailingCharacters
  | some _ => failNext .trailingCharacters
  | none => failNext .endInList

/-- Read items up to the end of a list; no more than `fuel` of them. -/
def items (r : Reader α) : Nat → Bool → Reader (List α)
  | 0, _ => fail .endInList
  | fuel + 1, first => do
    if ← anotherItem first then do
      let a ← r
      return a :: (← items r fuel false)
    else return []

/-- Read a list. -/
def listValue (r : Reader α) : Reader (List α) := do
  if (← someNext) = '[' then do
    eat
    let as ← items r ((← get).rest.length + 1) true
    closeList
    return as
  else mismatch "a sequence"

/-- There is another key in an object; the comma before it and its quote are taken. -/
def anotherKey (first : Bool) : Reader Bool := do
  let key (c : Option Char) : Reader Bool :=
    match c with
    | some '"' => do eat; return true
    | some '\x7d' => failNext .trailingComma
    | some _ => failNext .keyNoText
    | none => failNext .endInValue
  match ← next with
  | none => failNext .endInObject
  | some '\x7d' => return false
  | some c =>
    if first then key (some c)
    else if c = ',' then do eat; key (← next)
    else failNext .noObjectEnd

/-- Take the colon behind a key. -/
def colon : Reader Unit := do
  match ← next with
  | some ':' => eat
  | some _ => failNext .noColon
  | none => failNext .endInObject

/-- What encloses a value. -/
inductive Frame where
  /-- A list. -/
  | list
  /-- An object. -/
  | object
deriving DecidableEq

/-- The character that ends what is enclosed. -/
def Frame.close : Frame → Char
  | list => ']'
  | object => '\x7d'

/-- Pass over a key that does not matter, and the colon behind it. -/
def passKey : Reader Unit := do
  match ← next with
  | some '"' => eat
  | some _ => failNext .keyNoText
  | none => failNext .endInObject
  passText
  colon

/-- What comes next when values are passed over. -/
inductive Passing where
  /-- A value. -/
  | value
  /-- The end of what encloses, or another entry; behind a comma if one has gone before. -/
  | entry (first : Bool)

/-- Pass over values until everything is closed; each step that takes no character is followed by
one that does. -/
def pass : Nat → Passing → List Frame → Reader Unit
  | 0, _, _ => fail .endInValue
  | fuel + 1, .value, frames => do
    match ← someNext with
    | 'n' => eat; word "ull".toList; pass fuel (.entry false) frames
    | 't' => eat; word "rue".toList; pass fuel (.entry false) frames
    | 'f' => eat; word "alse".toList; pass fuel (.entry false) frames
    | '-' => eat; passNumber; pass fuel (.entry false) frames
    | '"' => eat; passText; pass fuel (.entry false) frames
    | '[' => eat; pass fuel (.entry true) (.list :: frames)
    | '\x7b' => eat; pass fuel (.entry true) (.object :: frames)
    | c =>
      if c.isDigit then do passNumber; pass fuel (.entry false) frames
      else failNext .noValue
  | _ + 1, .entry _, [] => pure ()
  | fuel + 1, .entry first, frame :: frames => do
    match ← next with
    | none => failNext (match frame with
      | .list => .endInList
      | .object => .endInObject)
    | some c =>
      if c = frame.close then do eat; pass fuel (.entry false) frames
      else
        if !first then
          if c = ',' then eat
          else failNext (match frame with
            | .list => .noListEnd
            | .object => .noObjectEnd)
        if frame = .object then passKey
        pass fuel .value (frame :: frames)

/-- Pass over a value that does not matter. -/
def passValue : Reader Unit := do pass (2 * (← get).rest.length + 2) .value []

end AppScaffold.Json.Reader
