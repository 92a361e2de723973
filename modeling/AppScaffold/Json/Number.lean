import AppScaffold.Json.Cursor

/-!
# Numbers

A whole number is kept exactly if it fits into sixty-four bits. Any other number becomes a
floating-point number: its leading digits, as many as fit into sixty-four bits, are scaled by a
power of ten. A negative zero is a floating-point number.
-/

namespace AppScaffold.Json

/-- The greatest number of sixty-four bits. -/
def wordLimit : Nat := 0xffffffffffffffff

/-- Append digits to a number as long as it fits into sixty-four bits; the count of the digits that
were appended comes with it. -/
def absorb (value : Nat) : List Char → Nat × Nat
  | [] => (value, 0)
  | c :: cs =>
    let longer := 10 * value + (c.toNat - 48)
    if longer ≤ wordLimit then
      let (result, count) := absorb longer cs
      (result, count + 1)
    else (value, 0)

/-- The number scaled by a power of ten, unless it becomes infinite. -/
def scaleFloat (x : Float) (exponent : Int) : Option Float :=
  if exponent.natAbs ≤ 308 then
    let power := Float.ofScientific 1 false exponent.natAbs
    if 0 ≤ exponent then (let y := x * power; if y.isInf then none else some y)
    else some (x / power)
  else if x == 0 then some x
  else if 0 ≤ exponent then none
  else scaleFloat (x / 1e308) (exponent + 308)
termination_by exponent.natAbs

/-- The floating-point number of a significand and a power of ten. -/
def double (negative : Bool) (significand : Nat) (exponent : Int) : Option Number :=
  (scaleFloat significand.toUInt64.toFloat exponent).map fun x =>
    .double (.ofFloat (if negative then -x else x))

/-- The whole number with a sign, or the floating-point number if it does not fit. -/
def whole (negative : Bool) (n : Nat) : Number :=
  if !negative then .natural n
  else if n = 0 || 0x8000000000000000 < n then .double (.ofFloat (-n.toUInt64.toFloat))
  else .negative n

/-- The greatest power of ten that is counted. -/
def exponentLimit : Nat := 0x7fffffff

/-- The power of ten that digits write, or the number of digits with which it becomes too great. -/
def exponentOf (value count : Nat) : List Char → Except Nat Nat
  | [] => .ok value
  | c :: cs =>
    let longer := 10 * value + (c.toNat - 48)
    if longer ≤ exponentLimit then exponentOf longer (count + 1) cs else .error (count + 1)

namespace Reader

/-- Pass over a sign in front of a power of ten; true for a minus. -/
def exponentSign : Reader Bool := do
  match ← peek with
  | some '+' => eat; return false
  | some '-' => eat; return true
  | _ => return false

/-- The number, unless it is out of range. -/
def inRange (n : Option Number) : Reader Number :=
  match n with
  | some n => pure n
  | none => fail .outOfRange

/-- Read a power of ten behind its letter, `exponent` being what the point amounts to. -/
def exponent (negative : Bool) (significand : Nat) (exponent : Int) : Reader Number := do
  let below ← exponentSign
  let start ← get
  let digits ← takeAscii Char.isDigit
  if digits.isEmpty then
    if start.rest.isEmpty then fail .endInValue else failNext .badNumber
  else
    match exponentOf 0 0 digits with
    | .ok power =>
      inRange (double negative significand (if below then exponent - power else exponent + power))
    | .error count =>
      if significand ≠ 0 && !below then fun _ => .error ⟨.outOfRange, start.index + count⟩
      else pure (.double (.zero negative))

/-- Read what follows the whole part of a number, or its fraction. -/
def scaled (negative : Bool) (significand : Nat) (power : Int) : Reader Number := do
  let c ← peek
  if c = some 'e' || c = some 'E' then do eat; exponent negative significand power
  else inRange (double negative significand power)

/-- Read a fraction behind its point. -/
def fraction (negative : Bool) (significand : Nat) (power : Int) : Reader Number := do
  let digits ← takeAscii Char.isDigit
  if digits.isEmpty then
    match ← peek with
    | some _ => failNext .badNumber
    | none => fail .endInValue
  else
    let (longer, count) := absorb significand digits
    scaled negative longer (power - count)

/-- Read a number behind its sign. -/
def number (negative : Bool) : Reader Number := do
  let digits ← takeAscii Char.isDigit
  match digits with
  | [] =>
    match ← peek with
    | some _ => failNext .badNumber
    | none => fail .endInValue
  | '0' :: _ :: _ => fun c => .error ⟨.badNumber, c.index - digits.length + 2⟩
  | _ =>
    let (significand, count) := absorb 0 digits
    let power : Int := digits.length - count
    match ← peek with
    | some '.' => do eat; fraction negative significand power
    | some 'e' | some 'E' => do eat; exponent negative significand power
    | _ =>
      if power = 0 then return whole negative significand
      else inRange (double negative significand power)

/-- Pass over a power of ten behind its letter. -/
def passExponent : Reader Unit := do
  let _ ← exponentSign
  let digits ← takeAscii Char.isDigit
  if digits.isEmpty then failNext .badNumber

/-- Pass over a number behind its sign. -/
def passNumber : Reader Unit := do
  let digits ← takeAscii Char.isDigit
  match digits with
  | [] => failNext .badNumber
  | '0' :: _ :: _ => fun c => .error ⟨.badNumber, c.index - digits.length + 2⟩
  | _ =>
    let c ← peek
    if c = some '.' then
      eat
      let places ← takeAscii Char.isDigit
      if places.isEmpty then failNext .badNumber
    let c ← peek
    if c = some 'e' || c = some 'E' then
      eat
      passExponent

end Reader

end AppScaffold.Json
