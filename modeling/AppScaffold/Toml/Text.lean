import AppScaffold.Toml.Scan

/-!
# Texts in configuration files

A text stands between single quotes, where every character stands for itself, or between double
quotes, where a backslash begins an escape. Between three quotes it can have several lines.
-/

namespace AppScaffold.Toml

/-- The value of a digit to the base sixteen. -/
def hexDigit (c : Char) : Option Nat :=
  if c.isDigit then some (c.toNat - 48)
  else if 'a' ≤ c && c ≤ 'f' then some (c.toNat - 87)
  else if 'A' ≤ c && c ≤ 'F' then some (c.toNat - 55)
  else none

/-- The number that digits to the base sixteen write, `value` standing for those before. -/
def hexNumber (value : Nat) : List Char → Option Nat
  | [] => some value
  | c :: cs => (hexDigit c).bind fun d => hexNumber (16 * value + d) cs

/-- The character whose number is written by so many digits. -/
def codeChar (width : Nat) (cs : List Char) : Option Char :=
  let digits := cs.take width
  if digits.length ≠ width then none
  else (hexNumber 0 digits).bind fun n => if n.isValidChar then some (Char.ofNat n) else none

/-- The character that an escape writes, and the number of characters behind the backslash that
belong to it. -/
def escape : List Char → Option (Char × Nat)
  | 'b' :: _ => some ('\x08', 1)
  | 't' :: _ => some ('\t', 1)
  | 'n' :: _ => some ('\n', 1)
  | 'f' :: _ => some ('\x0c', 1)
  | 'r' :: _ => some ('\r', 1)
  | '"' :: _ => some ('\x22', 1)
  | '\\' :: _ => some ('\\', 1)
  | 'u' :: cs => (codeChar 4 cs).map fun c => (c, 5)
  | 'U' :: cs => (codeChar 8 cs).map fun c => (c, 9)
  | _ => none

/-- The text up to its closing double quote. -/
def basicText (cs : List Char) : Option (List Char × List Char) :=
  match cs with
  | [] => none
  | c :: cs =>
    if c = '\x22' then some ([], cs)
    else if c = '\\' then do
      let (d, width) ← escape cs
      let (ds, rest) ← basicText (cs.drop width)
      return (d :: ds, rest)
    else if isPrintable c then do
      let (ds, rest) ← basicText cs
      return (c :: ds, rest)
    else none
termination_by cs.length

/-- The text up to its closing single quote. -/
def literalText : List Char → Option (List Char × List Char)
  | [] => none
  | c :: cs =>
    if c = '\x27' then some ([], cs)
    else if isPrintable c then do
      let (ds, rest) ← literalText cs
      return (c :: ds, rest)
    else none

/-- Three quotes come next. -/
def closes (quote : Char) (cs : List Char) : Bool := [quote, quote, quote].isPrefixOf cs

/-- The quotes of the text that stand right before its three closing quotes, at most two, and what
is left. -/
def closing (quote : Char) (cs : List Char) : List Char × List Char :=
  let inside := min 2 ((cs.takeWhile (· == quote)).length - 3)
  (List.replicate inside quote, cs.drop (inside + 3))

/-- A backslash before the end of a line joins it to the next word. -/
def joinsLines (cs : List Char) : Bool := (cs.dropWhile isSpace).head? = some '\n'

/-- The text up to its three closing double quotes. -/
def basicLines (cs : List Char) : Option (List Char × List Char) :=
  match cs with
  | [] => none
  | c :: tail =>
    if closes '\x22' cs then some (closing '\x22' cs)
    else if c = '\\' then
      if joinsLines tail then basicLines (tail.dropWhile isGap)
      else do
        let (d, width) ← escape tail
        let (ds, rest) ← basicLines (tail.drop width)
        return (d :: ds, rest)
    else if c = '\n' || isPrintable c then do
      let (ds, rest) ← basicLines tail
      return (c :: ds, rest)
    else none
termination_by cs.length
decreasing_by
  all_goals
    have h := length_dropWhile_le isGap tail
    simp only [List.length_cons, List.length_drop]
    omega

/-- The text up to its three closing single quotes. -/
def literalLines : List Char → Option (List Char × List Char)
  | [] => none
  | c :: cs =>
    if closes '\x27' (c :: cs) then some (closing '\x27' (c :: cs))
    else if c = '\n' || isPrintable c then do
      let (ds, rest) ← literalLines cs
      return (c :: ds, rest)
    else none

/-- A text without the end of a line right at its beginning. -/
def withoutFirstLineEnd : List Char → List Char
  | '\n' :: cs => cs
  | cs => cs

open Text.Scanner

/-- Take a text of one line behind its opening quote. -/
def line (quote : Char) : Text.Scanner String := fun cs =>
  (if quote = '\x22' then basicText cs else literalText cs).map fun (ds, rest) => (.ofList ds, rest)

/-- Take a text of several lines behind its opening quotes. -/
def lines (quote : Char) : Text.Scanner String := fun cs =>
  let cs := withoutFirstLineEnd cs
  (if quote = '\x22' then basicLines cs else literalLines cs).map fun (ds, rest) =>
    (.ofList ds, rest)

/-- Take a text of any kind, which begins with a quote. -/
def text (quote : Char) : Text.Scanner String := do
  if ← take? [quote, quote, quote] then lines quote
  else
    take [quote]
    line quote

end AppScaffold.Toml
