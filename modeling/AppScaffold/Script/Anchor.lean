import AppScaffold.Script.Role
import AppScaffold.Script.Search

/-!
# Anchors

An anchor marks the place in a script where entries are added: behind the last entry of an exported
list or table, or at the end of the file. The declaration of a list or table counts only when it
stands in code; its literal ends where the brackets, counted over code without regard to their kind,
are balanced.
-/

namespace AppScaffold.Script

/-- What marks the place for new entries. -/
inductive Anchor where
  /-- The list literal bound to an exported name. -/
  | arrayLiteral (name : String)
  /-- The table literal given to a function whose result is bound to an exported name. -/
  | mapCall (name callee : String)
  /-- The end of a script to which is only ever appended. -/
  | fileEnd
deriving DecidableEq, Repr

/-- A place for a new entry. -/
structure InsertionPoint where
  /-- The number of characters before the place. -/
  index : Nat
  /-- A comma, or at the end of the file a newline, has to come first. -/
  needsSeparator : Bool
deriving DecidableEq, Repr

namespace Anchor

/-- The text that stands for the anchor when it is reported missing. -/
def marker : Anchor → String
  | .arrayLiteral name => "export const " ++ name ++ " = ["
  | .mapCall name callee => "export const " ++ name ++ " = " ++ callee ++ "(\x7b"
  | .fileEnd => "<end of file>"

/-- The parts of `export const <name> =`, blanks being free between the words. -/
def declarationParts (name : String) : List Part :=
  [.exact "export".toList, .gap, .exact "const".toList, .gap, .exact name.toList, .blanks,
    .exact ['='], .blanks]

/-- The declaration up to and including the bracket that opens its literal. -/
def parts : Anchor → Option (List Part)
  | .arrayLiteral name => some (declarationParts name ++ [.exact ['[']])
  | .mapCall name callee =>
    some (declarationParts name ++
      [.exact callee.toList, .blanks, .exact ['('], .blanks, .exact ['\x7b']])
  | .fileEnd => none

end Anchor

/-- The first stretch that fits the parts and begins in code. -/
def findDeclaration (cs : List Char) (parts : List Part) : Option Span :=
  (spans (fun _ => afterParts parts) 0 0 none cs).find? fun span => isCodeIndex cs span.start

/-- A bracket that opens, of any kind. -/
def isOpening (c : Char) : Bool := c == '[' || c == '\x7b' || c == '('

/-- A bracket that closes, of any kind. -/
def isClosing (c : Char) : Bool := c == ']' || c == '\x7d' || c == ')'

/-- A space, tab, line feed, form feed or carriage return. -/
def isAsciiBlank (c : Char) : Bool :=
  c == ' ' || c == '\t' || c == '\n' || c == '\x0c' || c == '\r'

/-- The last character of a literal that counts as content: the closing quote of a string, or a
character of code that is no ASCII blank. It is given with its index, and the literal is read from
inside it, `depth` brackets being open; a literal that is never closed has none. -/
def lastSignificant (index depth : Nat) (last : Option (Nat × Char)) :
    List (Char × Role) → Option (Option (Nat × Char))
  | [] => none
  | (c, .code) :: cs =>
    if isClosing c then
      if depth ≤ 1 then some last else lastSignificant (index + 1) (depth - 1) (some (index, c)) cs
    else if isOpening c then lastSignificant (index + 1) (depth + 1) (some (index, c)) cs
    else if isAsciiBlank c then lastSignificant (index + 1) depth last cs
    else lastSignificant (index + 1) depth (some (index, c)) cs
  | (c, .quoteEnd) :: cs => lastSignificant (index + 1) depth (some (index, c)) cs
  | _ :: cs => lastSignificant (index + 1) depth last cs

namespace Anchor

/-- Where the declaration begins; for the end of the file that is the end. -/
def declarationStart (anchor : Anchor) (cs : List Char) : Option Nat :=
  match anchor.parts with
  | some parts => (findDeclaration cs parts).map Span.start
  | none => some cs.length

/-- The place for a new entry, if the anchor is there and its literal is closed. -/
def locate (anchor : Anchor) (cs : List Char) : Option InsertionPoint :=
  match anchor.parts with
  | none => some ⟨cs.length, !cs.isEmpty && cs.getLast? != some '\n'⟩
  | some parts => do
    let declaration ← findDeclaration cs parts
    let inside := cs.drop declaration.stop
    match ← lastSignificant declaration.stop 1 none (roles .code inside) with
    | some (index, c) => some ⟨index + 1, c != ','⟩
    | none => some ⟨declaration.stop, false⟩

end Anchor

end AppScaffold.Script
