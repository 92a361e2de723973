import AppScaffold.Text.Quoted

/-!
# Written texts of configuration files

A text is written in the plainest form in which it can be read back: between double quotes, between
single quotes, between three double quotes or between three single quotes, always without escapes
if possible. The text of several lines begins on a line of its own.
-/

namespace AppScaffold.Toml

/-- A form in which a text is written. -/
structure Quoting where
  /-- The quote. -/
  mark : Char
  /-- There are three quotes at both ends, and line feeds stand for themselves. -/
  long : Bool
deriving DecidableEq

namespace Quoting

/-- Backslashes begin escapes. -/
def escapes (q : Quoting) : Bool := q.mark = '\x22'

/-- How many of its own quotes may stand in a row inside. -/
def runLimit (q : Quoting) : Nat := if q.long then 2 else 0

end Quoting

/-- A control character that must be written as an escape. -/
def isControl (c : Char) : Bool :=
  c.toNat = 0x7f || (c.toNat < 0x20 && c ≠ '\t' && c ≠ '\n')

/-- The length of the longest row of a character, `run` of them having come just before. -/
def longestRun (mark : Char) (run : Nat) : List Char → Nat
  | [] => run
  | c :: cs => if c = mark then longestRun mark (run + 1) cs else max run (longestRun mark 0 cs)

/-- The characters can be written in a form without any escape. -/
def Quoting.plain (q : Quoting) (cs : List Char) : Bool :=
  !cs.any isControl && !(q.escapes && cs.contains '\\') && (q.long || !cs.contains '\n') &&
    longestRun q.mark 0 cs ≤ q.runLimit

/-- The forms from the plainest on. -/
def Quoting.all : List Quoting :=
  [⟨'\x22', false⟩, ⟨'\x27', false⟩, ⟨'\x22', true⟩, ⟨'\x27', true⟩]

/-- The form in which the characters are written: the first one that needs no escape, and if there
is none, double quotes. -/
def Quoting.of (cs : List Char) : Quoting :=
  (Quoting.all.find? fun q => q.plain cs).getD ⟨'\x22', cs.contains '\n'⟩

/-- A number below sixteen times sixteen with four digits. -/
def fourDigits (n : Nat) : List Char :=
  ['0', '0', (Nat.digitChar (n / 16)).toUpper, (Nat.digitChar (n % 16)).toUpper]

/-- The escape that stands for a character other than a quote, if it needs one. -/
def Quoting.escape? (q : Quoting) (c : Char) : Option (List Char) :=
  if c = '\x08' then some ['\\', 'b']
  else if c = '\t' then some ['\\', 't']
  else if c = '\n' then if q.long then none else some ['\\', 'n']
  else if c = '\x0c' then some ['\\', 'f']
  else if c = '\r' then some ['\\', 'r']
  else if c = '\\' then some ['\\', '\\']
  else if isControl c then some (['\\', 'u'] ++ fourDigits c.toNat)
  else none

/-- The characters between double quotes, `run` quotes having come just before. -/
def Quoting.escaped (q : Quoting) (run : Nat) : List Char → List Char
  | [] => []
  | c :: cs =>
    if c = '\x22' then
      if q.runLimit ≤ run then ['\\', c] ++ q.escaped 0 cs else c :: q.escaped (run + 1) cs
    else match q.escape? c with
      | some e => e ++ q.escaped 0 cs
      | none => c :: q.escaped 0 cs

/-- The quotes at one end. -/
def Quoting.fence (q : Quoting) : List Char := List.replicate (if q.long then 3 else 1) q.mark

/-- The written form of characters. -/
def writtenChars (cs : List Char) : List Char :=
  let q := Quoting.of cs
  q.fence ++ (if q.long && cs.contains '\n' then ['\n'] else []) ++
    (if q.escapes then q.escaped 0 cs else cs) ++ q.fence

/-- The written form of a text. -/
def written (s : String) : String := .ofList (writtenChars s.toList)

end AppScaffold.Toml
