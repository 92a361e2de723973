import AppScaffold.Json.Cursor

/-!
# Texts

A text stands between double quotes; a backslash begins an escape. Characters beyond the first
65536 are escaped as two code units.
-/

namespace AppScaffold.Json

/-- The value of a digit to the base sixteen. -/
def hexValue (c : Char) : Option Nat :=
  if c.isDigit then some (c.toNat - 48)
  else if 'a' ≤ c && c ≤ 'f' then some (c.toNat - 87)
  else if 'A' ≤ c && c ≤ 'F' then some (c.toNat - 55)
  else none

/-- The number that digits to the base sixteen write, `value` standing for those before. -/
def hexNumber (value : Nat) : List Char → Option Nat
  | [] => some value
  | c :: cs => (hexValue c).bind fun d => hexNumber (16 * value + d) cs

/-- The code unit that four digits write. -/
def codeUnit (index : Nat) (cs : List Char) : Except Failure Nat :=
  let size := Text.octets (cs.take 4)
  if size < 4 then .error ⟨.endInText, index + size⟩
  else match hexNumber 0 (cs.take 4) with
    | some n => .ok n
    | none => .error ⟨.badEscape, index + 4⟩

/-- The first of two code units. -/
def isLeading (n : Nat) : Bool := 0xd800 ≤ n && n ≤ 0xdbff

/-- The second of two code units. -/
def isTrailing (n : Nat) : Bool := 0xdc00 ≤ n && n ≤ 0xdfff

/-- The character that two code units write. -/
def joinUnits (leading trailing : Nat) : Char :=
  Char.ofNat ((leading - 0xd800) * 0x400 + (trailing - 0xdc00) + 0x10000)

/-- What must follow a leading code unit, namely an escaped trailing one; the characters behind the
four digits are given. -/
def trailingUnit (index leading : Nat) (cs : List Char) : Except Failure (Char × Nat) :=
  match cs with
  | [] => .error ⟨.endInText, index⟩
  | '\\' :: [] => .error ⟨.endInText, index + 1⟩
  | '\\' :: 'u' :: cs => do
    let trailing ← codeUnit (index + 2) cs
    if isTrailing trailing then return (joinUnits leading trailing, 11)
    else .error ⟨.loneSurrogate, index + 6⟩
  | '\\' :: _ => .error ⟨.endOfEscape, index + 2⟩
  | _ => .error ⟨.endOfEscape, index + 1⟩

/-- The character of a short escape. -/
def shortEscape (c : Char) : Option Char :=
  if c = '\x22' || c = '\\' || c = '/' then some c
  else if c = 'b' then some '\x08'
  else if c = 'f' then some '\x0c'
  else if c = 'n' then some '\n'
  else if c = 'r' then some '\r'
  else if c = 't' then some '\t'
  else none

/-- The character that an escape writes, and the number of characters behind the backslash that
belong to it. -/
def escape (index : Nat) : List Char → Except Failure (Char × Nat)
  | [] => .error ⟨.endInText, index⟩
  | 'u' :: cs => do
    let n ← codeUnit (index + 1) cs
    if isTrailing n then .error ⟨.loneSurrogate, index + 5⟩
    else if isLeading n then trailingUnit (index + 5) n (cs.drop 4)
    else return (Char.ofNat n, 5)
  | c :: _ =>
    match shortEscape c with
    | some d => .ok (d, 1)
    | none => .error ⟨.badEscape, index + 1⟩

/-- The text up to its closing quote, and what is left behind the quote. -/
def textFrom (index : Nat) (cs : List Char) : Except Failure (List Char × Cursor) :=
  match cs with
  | [] => .error ⟨.endInText, index⟩
  | c :: cs =>
    if c = '\x22' then .ok ([], ⟨cs, index + 1⟩)
    else if c = '\\' then do
      let (d, width) ← escape (index + 1) cs
      let (ds, rest) ← textFrom (index + 1 + width) (cs.drop width)
      return (d :: ds, rest)
    else if c.toNat < 0x20 then .error ⟨.controlCharacter, index + 1⟩
    else do
      let (ds, rest) ← textFrom (index + c.utf8Size) cs
      return (c :: ds, rest)
termination_by cs.length

/-- The number of characters behind the backslash of an escape whose meaning does not matter. -/
def escapeWidth (index : Nat) : List Char → Except Failure Nat
  | [] => .error ⟨.endInText, index⟩
  | 'u' :: cs => (codeUnit (index + 1) cs).map fun _ => 5
  | c :: _ => if (shortEscape c).isSome then .ok 1 else .error ⟨.badEscape, index + 1⟩

/-- What is left behind the closing quote of a text that does not matter. -/
def skipText (index : Nat) (cs : List Char) : Except Failure Cursor :=
  match cs with
  | [] => .error ⟨.endInText, index⟩
  | c :: cs =>
    if c = '\x22' then .ok ⟨cs, index + 1⟩
    else if c = '\\' then do
      let width ← escapeWidth (index + 1) cs
      skipText (index + 1 + width) (cs.drop width)
    else if c.toNat < 0x20 then .error ⟨.controlCharacter, index⟩
    else skipText (index + c.utf8Size) cs
termination_by cs.length

namespace Reader

/-- Read a text behind its opening quote. -/
def text : Reader String := fun c =>
  (textFrom c.index c.rest).map fun (cs, rest) => (.ofList cs, rest)

/-- Pass over a text behind its opening quote. -/
def passText : Reader Unit := fun c => (skipText c.index c.rest).map fun rest => ((), rest)

end Reader

end AppScaffold.Json
