import AppScaffold.Toml.Number
import AppScaffold.Toml.Text
import AppScaffold.Toml.Table

/-!
# Values in configuration files

A value is a text, a word, a list or a table on one line. A list may go over several lines and may
end with a comma; a table on one line may not.
-/

namespace AppScaffold.Toml

/-- A character of a key without quotes. -/
def isKeyCharacter (c : Char) : Bool := c.isAlphanum || c == '_' || c == '-'

/-- A character of a word: a number, a date, or a truth value. -/
def isWordCharacter (c : Char) : Bool := isKeyCharacter c || c == '+' || c == '.' || c == ':'

/-- A path of keys has fewer names than this, and lists and tables are nested less deeply. -/
def depthLimit : Nat := 80

open Text.Scanner

/-- Take one name of a key. -/
def name : Text.Scanner String := do
  match ← peek with
  | some '"' =>
    take ['\x22']
    line '\x22'
  | some '\x27' =>
    take ['\x27']
    line '\x27'
  | _ =>
    let cs ← takeWhile isKeyCharacter
    if cs.isEmpty then malformed else return .ofList cs

/-- Take names with points between them. -/
def names : Nat → Text.Scanner (List String)
  | 0 => malformed
  | fuel + 1 => do
    pass isSpace
    let first ← name
    pass isSpace
    if ← take? ['.'] then return first :: (← names fuel) else return [first]

/-- Take a key: the names before the last one, and the last one. -/
def key : Text.Scanner (List String × String) := do
  let path ← names depthLimit
  match path.getLast? with
  | some last => if path.length < depthLimit then return (path.dropLast, last) else malformed
  | none => malformed

/-- A time behind a day and a space belongs to it. -/
def timeOfDay (day : List Char) : Text.Scanner Unit := fun cs =>
  match cs with
  | ' ' :: time =>
    if isDay day && isZonedTime (time.takeWhile isWordCharacter) then
      some ((), time.dropWhile isWordCharacter)
    else some ((), cs)
  | _ => some ((), cs)

/-- Take a word. -/
def word : Text.Scanner ConfigValue := do
  let cs ← takeWhile isWordCharacter
  if cs = "true".toList then return .bool true
  else if cs = "false".toList then return .bool false
  else
    match number cs with
    | some v =>
      timeOfDay cs
      return v
    | none => malformed

/-- Take a text or a word. -/
def scalar : Text.Scanner ConfigValue := do
  match ← peek with
  | some '"' => return .text (← text '\x22')
  | some '\x27' => return .text (← text '\x27')
  | _ => word

/-- Take the items of a list up to its end; no more than `fuel` of them. -/
def items (item : Text.Scanner ConfigValue) : Nat → Text.Scanner (List ConfigValue)
  | 0 => malformed
  | fuel + 1 => do
    gaps (fuel + 1)
    if ← take? [']'] then return []
    else
      let v ← item
      gaps (fuel + 1)
      if ← take? [','] then return v :: (← items item fuel)
      else
        take [']']
        return [v]

/-- Take the entries of a table on one line up to its end; no more than `fuel` of them. -/
def members (item : Text.Scanner ConfigValue) :
    Nat → Entries Item → Text.Scanner (Entries Item)
  | 0, _ => malformed
  | fuel + 1, entries => do
    let (path, last) ← key
    take ['=']
    pass isSpace
    let v ← item
    pass isSpace
    match Item.insert path last v entries with
    | none => malformed
    | some entries =>
      if ← take? [','] then members item fuel entries
      else
        take ['\x7d']
        return entries

/-- Take a value, with lists and tables in it no deeper than `depth`; they have no more than `fuel`
items. -/
def value (fuel : Nat) : Nat → Text.Scanner ConfigValue
  | 0 => scalar
  | depth + 1 => do
    if ← take? ['['] then return .list (← items (value fuel depth) fuel)
    else if ← take? ['\x7b'] then
      pass isSpace
      if ← take? ['\x7d'] then return .table []
      else return .table (Item.values (← members (value fuel depth) fuel []))
    else scalar

end AppScaffold.Toml
