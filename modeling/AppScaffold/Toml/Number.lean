import AppScaffold.Config.Value
import AppScaffold.Number.Parsed
import AppScaffold.Text.Split

/-!
# Numbers and dates in configuration files

Words that begin with a digit or a sign: whole numbers to four bases, floating-point numbers, and
dates and times. Underscores may stand between digits. A date is a table of its own kind, of which
only its being one matters.
-/

namespace AppScaffold.Toml

/-- The digits with the underscores between them taken away. -/
def plainDigits (isDigit : Char → Bool) : List Char → Option (List Char)
  | [] => none
  | [c] => if isDigit c then some [c] else none
  | c :: '_' :: cs => if isDigit c then (plainDigits isDigit cs).map (c :: ·) else none
  | c :: cs => if isDigit c then (plainDigits isDigit cs).map (c :: ·) else none

/-- The digits of a decimal, which do not begin with a needless zero. -/
def decimalDigits (cs : List Char) : Option (List Char) :=
  match plainDigits Char.isDigit cs with
  | some ('0' :: _ :: _) => none
  | digits => digits

/-- A whole number that fits into sixty-four bits. -/
def integer? (n : Int) : Option ConfigValue :=
  if -0x8000000000000000 ≤ n && n < 0x8000000000000000 then some (.signed n) else none

/-- The value of a digit to a base up to sixteen. -/
def digitValue (c : Char) : Nat :=
  if c.isDigit then c.toNat - 48 else if c.isLower then c.toNat - 87 else c.toNat - 55

/-- A digit to the base sixteen. -/
def isHexDigit (c : Char) : Bool :=
  c.isDigit || ('a' ≤ c && c ≤ 'f') || ('A' ≤ c && c ≤ 'F')

/-- A digit to a base. -/
def isDigitTo (base : Nat) (c : Char) : Bool := isHexDigit c && digitValue c < base

/-- The whole number that digits to a base write. -/
def based (base : Nat) (cs : List Char) : Option ConfigValue :=
  (plainDigits (isDigitTo base) cs).bind fun digits =>
    let n : Nat := digits.foldl (fun n c => base * n + digitValue c) 0
    integer? n

/-- The whole number that a word writes. -/
def integer : List Char → Option ConfigValue
  | '0' :: 'x' :: cs => based 16 cs
  | '0' :: 'o' :: cs => based 8 cs
  | '0' :: 'b' :: cs => based 2 cs
  | cs =>
    let (negative, digits) := takeSign cs
    (decimalDigits digits).bind fun digits =>
      let n : Int := digitsValue 0 digits
      integer? (if negative then -n else n)

/-- The power of ten that a word writes. -/
def powerOfTen (cs : List Char) : Option Int :=
  let (negative, digits) := takeSign cs
  (plainDigits Char.isDigit digits).map fun digits =>
    let n : Int := digitsValue 0 digits
    if negative then -n else n

/-- A character that begins a power of ten. -/
def isPowerMark (c : Char) : Bool := c == 'e' || c == 'E'

/-- A floating-point number, which must not be too great. -/
def float? (p : DecimalParts) : Option ConfigValue :=
  if p.toDouble = .infinite false then none else some (.float p.toDouble)

/-- The floating-point number that a word writes. -/
def float (cs : List Char) : Option ConfigValue := do
  let (negative, cs) := takeSign cs
  if cs = "inf".toList then return .float (.infinite negative)
  else if cs = "nan".toList then return .float .nan
  else
    let mantissa := cs.takeWhile fun c => !isPowerMark c
    let power := cs.dropWhile fun c => !isPowerMark c
    let exponent ← if power.isEmpty then some 0 else powerOfTen (power.drop 1)
    let whole ← decimalDigits (mantissa.takeWhile (· != '.'))
    match mantissa.dropWhile (· != '.') with
    | [] => if power.isEmpty then none else float? ⟨negative, whole, [], exponent⟩
    | _ :: fraction => do
      float? ⟨negative, whole, ← plainDigits Char.isDigit fraction, exponent⟩

/-- The number that exactly so many digits write. -/
def fixedDigits (width : Nat) (cs : List Char) : Option Nat :=
  if cs.length = width && cs.all Char.isDigit then some (digitsValue 0 cs) else none

/-- The number of days of a month. -/
def daysOf (year month : Nat) : Nat :=
  if month = 2 then
    if year % 4 = 0 && (year % 100 ≠ 0 || year % 400 = 0) then 29 else 28
  else if month = 4 || month = 6 || month = 9 || month = 11 then 30
  else 31

/-- The characters write a day: year, month and day between hyphens. -/
def isDay (cs : List Char) : Bool :=
  match Text.splitChars '-' cs with
  | [year, month, day] =>
    match fixedDigits 4 year, fixedDigits 2 month, fixedDigits 2 day with
    | some y, some m, some d => 1 ≤ m && m ≤ 12 && 1 ≤ d && d ≤ daysOf y m
    | _, _, _ => false
  | _ => false

/-- The characters write a number of two digits up to a limit. -/
def isUpTo (limit : Nat) (cs : List Char) : Bool :=
  match fixedDigits 2 cs with
  | some n => n ≤ limit
  | none => false

/-- The characters write the seconds of a time, perhaps with a fraction. -/
def isSeconds (cs : List Char) : Bool :=
  isUpTo 60 (cs.take 2) &&
    match cs.drop 2 with
    | [] => true
    | '.' :: fraction => !fraction.isEmpty && fraction.all Char.isDigit
    | _ => false

/-- The characters write a time: hours, minutes and seconds between colons. -/
def isTime (cs : List Char) : Bool :=
  match Text.splitChars ':' cs with
  | [hours, minutes, seconds] => isUpTo 23 hours && isUpTo 59 minutes && isSeconds seconds
  | _ => false

/-- The characters write the distance of a zone: hours and minutes behind a sign. -/
def isZone (cs : List Char) : Bool :=
  match Text.splitChars ':' cs with
  | [hours, minutes] => isUpTo 23 hours && isUpTo 59 minutes
  | _ => false

/-- The characters write a time, perhaps with a zone. -/
def isZonedTime (cs : List Char) : Bool :=
  let time := cs.takeWhile fun c => c.isDigit || c == ':' || c == '.'
  isTime time &&
    match cs.drop time.length with
    | [] => true
    | ['Z'] | ['z'] => true
    | '+' :: zone | '-' :: zone => isZone zone
    | _ => false

/-- The characters write a day and a time. -/
def isMoment (cs : List Char) : Bool :=
  isDay (cs.take 10) &&
    match cs.drop 10 with
    | 'T' :: time | 't' :: time => isZonedTime time
    | _ => false

/-- The number or date that a word writes. -/
def number (cs : List Char) : Option ConfigValue :=
  if isDay cs || isTime cs || isMoment cs then some (.table [])
  else match integer cs with
    | some v => some v
    | none => float cs

end AppScaffold.Toml
