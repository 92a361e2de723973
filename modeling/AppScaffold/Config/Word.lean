import AppScaffold.Toml.Text
import AppScaffold.Config.Value
import AppScaffold.Entries
import AppScaffold.Number.Parsed
import AppScaffold.Text.Blank

/-!
# Values of environment variables

The value of a variable is written more loosely than in a file: truth values, numbers, lists and
tables are known by their form, and what has no other form is a text. A value that is malformed as
a whole is taken as the text that it is.
-/

namespace AppScaffold.ConfigValue

open Text.Scanner

/-- A blank among values: a space, a tab, or the end of a line or page. -/
def isGap (c : Char) : Bool := c == ' ' || c == '\t' || c == '\n' || c == '\x0c' || c == '\r'

/-- A character that ends a bare word. -/
def endsWord (c : Char) : Bool :=
  c == ',' || c == '[' || c == ']' || c == '\x7b' || c == '\x7d'

/-- A character of a bare key. -/
def isBareKey (c : Char) : Bool := c.isAlphanum || c == '_' || c == '-'

/-- The greatest number that is not negative and fits into sixty-four bits. -/
def wholeLimit : Int := 0xffffffffffffffff

/-- The whole number that a word writes, if it fits into sixty-four bits. -/
def wholeOfWord (word : List Char) : Option ConfigValue :=
  (signedDigits word).bind fun n =>
    if word.head? = some '-' then
      if -0x8000000000000000 ≤ n then some (signed n) else none
    else if n ≤ wholeLimit then some (unsigned n.toNat) else none

/-- The floating-point number that a word with a point writes. -/
def floatOfWord (word : List Char) : Option ConfigValue :=
  if word.contains '.' then (DecimalParts.ofChars word).map fun p => float p.toDouble else none

/-- What a bare word means: a number if it has the form of one, else the text that it is. -/
def ofWord (word : List Char) : ConfigValue :=
  match floatOfWord word with
  | some v => v
  | none => (wholeOfWord word).getD (text (.ofList word))

/-- The characters up to the closing double quote, backslashes kept, and what is behind it. -/
def untilQuote : List Char → Option (List Char × List Char)
  | [] => none
  | '\x22' :: cs => some ([], cs)
  | '\\' :: c :: cs => (untilQuote cs).map fun (inner, rest) => ('\\' :: c :: inner, rest)
  | c :: cs => (untilQuote cs).map fun (inner, rest) => (c :: inner, rest)

/-- The characters that a text with escapes stands for. -/
def unescape (cs : List Char) : Option (List Char) :=
  match cs with
  | [] => some []
  | c :: cs =>
    if c = '\\' then do
      let (d, width) ← Toml.escape cs
      return d :: (← unescape (cs.drop width))
    else (unescape cs).map (c :: ·)
termination_by cs.length

/-- Take a text between double quotes, behind the first one. -/
def quotedText : Text.Scanner String := fun cs => do
  let (inner, rest) ← untilQuote cs
  return (.ofList (← unescape inner), rest)

/-- Take the character between single quotes, behind the first one. -/
def quotedCharacter : Text.Scanner Char
  | c :: '\x27' :: cs => some (c, cs)
  | _ => none

/-- Take a key, which stands between double quotes or is bare. -/
def key : Text.Scanner String := do
  if ← take? ['\x22'] then quotedText
  else
    let cs ← takeWhile isBareKey
    if cs.isEmpty then malformed else return .ofList cs

/-- Take the items behind an opening bracket up to the closing one; no more than `fuel` of them. A
comma may stand behind the last one. -/
def upTo {α : Type} (close : Char) (item : Text.Scanner α) : Nat → Text.Scanner (List α)
  | 0 => malformed
  | fuel + 1 => do
    if ← take? [close] then return []
    else
      let a ← item
      if ← take? [','] then return a :: (← upTo close item fuel)
      else
        take [close]
        return [a]

/-- Take a key, an equals sign and a value. -/
def member (item : Text.Scanner ConfigValue) : Text.Scanner (String × ConfigValue) := do
  pass isGap
  let k ← key
  pass isGap
  take ['=']
  pass isGap
  let v ← item
  pass isGap
  return (k, v)

/-- The table of members, later ones in the place of earlier ones. -/
def tableOf (members : List (String × ConfigValue)) : ConfigValue :=
  table (members.foldl (fun entries m => Entries.put m.1 m.2 entries) [])

/-- Take a value behind the blanks before it. Lists and tables have no more than `fuel` items and
are nested less deeply than that. -/
def bareValue : Nat → Text.Scanner ConfigValue
  | 0 => malformed
  | fuel + 1 => do
    if ← take? ['t', 'r', 'u', 'e'] then return bool true
    else if ← take? ['f', 'a', 'l', 's', 'e'] then return bool false
    else if ← take? ['\x7b'] then
      return tableOf (← upTo '\x7d' (member (surrounded fuel)) (fuel + 1))
    else if ← take? ['['] then return list (← upTo ']' (surrounded fuel) (fuel + 1))
    else if ← take? ['\x22'] then return text (← quotedText)
    else if ← take? ['\x27'] then return char (← quotedCharacter)
    else return ofWord (Text.trimChars (← takeWhile fun c => !endsWord c))
where
  /-- Take a value with the blanks around it. -/
  surrounded (fuel : Nat) : Text.Scanner ConfigValue := do
    pass isGap
    let v ← bareValue fuel
    pass isGap
    return v

/-- The value that the text of a variable writes. -/
def ofText (s : String) : ConfigValue :=
  let cs := s.toList
  (Text.Scanner.run (bareValue.surrounded (cs.length + 1)) cs).getD (text s)

end AppScaffold.ConfigValue
