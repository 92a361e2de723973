import AppScaffold.Text.Blank

/-!
# Searching a script

A pattern is a sequence of fixed texts and runs of blanks. It is looked for from left to right, and
the search goes on behind each place where it was found.
-/

namespace AppScaffold.Script

/-- One part of a pattern. -/
inductive Part where
  /-- Exactly these characters. -/
  | exact (text : List Char)
  /-- Any number of blanks. -/
  | blanks
  /-- At least one blank. -/
  | gap
deriving DecidableEq

/-- What is left when a text that begins with the given characters is cut behind them. -/
def afterText : List Char → List Char → Option (List Char)
  | [], cs => some cs
  | _ :: _, [] => none
  | t :: ts, c :: cs => if t = c then afterText ts cs else none

/-- What can be left after some of the leading blanks, the shortest first. -/
def afterBlanks : List Char → List (List Char)
  | [] => [[]]
  | c :: cs => if Text.isBlank c then afterBlanks cs ++ [c :: cs] else [c :: cs]

/-- What can be left after one part, the shortest first. -/
def Part.after : Part → List Char → List (List Char)
  | .exact text, cs => (afterText text cs).toList
  | .blanks, cs => afterBlanks cs
  | .gap, [] => []
  | .gap, c :: cs => if Text.isBlank c then afterBlanks cs else []

/-- What is left after all parts in turn, if they fit. -/
def afterParts : List Part → List Char → Option (List Char)
  | [], cs => some cs
  | part :: parts, cs => (part.after cs).findSome? (afterParts parts)

/-- A stretch of a text, its end not included. -/
structure Span where
  /-- The index of the first character. -/
  start : Nat
  /-- The index behind the last character. -/
  stop : Nat
deriving DecidableEq, Repr

/-- The stretches found by `fit`, which gets the character before a place and the characters from
it on and says what is left behind a stretch that begins there. The first `skip` characters belong
to the stretch found last. -/
def spans (fit : Option Char → List Char → Option (List Char)) (index skip : Nat)
    (before : Option Char) : List Char → List Span
  | [] => []
  | c :: cs =>
    if skip = 0 then
      match fit before (c :: cs) with
      | some rest =>
        let size := cs.length + 1 - rest.length
        ⟨index, index + size⟩ :: spans fit (index + 1) (size - 1) (some c) cs
      | none => spans fit (index + 1) 0 (some c) cs
    else spans fit (index + 1) (skip - 1) (some c) cs

end AppScaffold.Script
