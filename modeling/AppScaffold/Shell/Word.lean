import AppScaffold.Text.Scanner

/-!
# Words of shell scripts

A script is cut into words and operators. A word is made of pieces of text and of parameters, which
stand for their values; what is quoted stays together when they do.
-/

namespace AppScaffold.Shell

/-- A piece of a word. -/
inductive Piece where
  /-- Text. -/
  | text (s : String) (quoted : Bool)
  /-- The value of a parameter. -/
  | parameter (name : String) (quoted : Bool)
deriving DecidableEq

/-- A word: its pieces. -/
abbrev Word := List Piece

/-- A part of a script. -/
inductive Token where
  /-- A word. -/
  | word (pieces : Word)
  /-- An operator; the end of a line counts as a semicolon. -/
  | operator (text : String)
deriving DecidableEq

open Text.Scanner

/-- A character of the name of a variable. -/
def isNameCharacter (c : Char) : Bool := c.isAlphanum || c == '_'

/-- A character that is the name of a parameter by itself. -/
def isSpecial (c : Char) : Bool := c.isDigit || "@*#?$".toList.contains c

/-- A character that ends a word. -/
def endsWord (c : Char) : Bool := " \t\n;&|<>()".toList.contains c

/-- Take the name behind a dollar sign; without one the sign stands for itself. -/
def parameter (quoted : Bool) : Text.Scanner Piece := do
  match ← peek with
  | some '\x7b' =>
    take ['\x7b']
    let name ← takeWhile (· ≠ '\x7d')
    take ['\x7d']
    return .parameter (.ofList name) quoted
  | some c =>
    if isSpecial c then
      take [c]
      return .parameter (.singleton c) quoted
    else
      let name ← takeWhile isNameCharacter
      return if name.isEmpty then .text "$" quoted else .parameter (.ofList name) quoted
  | none => return .text "$" quoted

/-- Take the character behind a backslash. Between double quotes the backslash stays before most
characters. -/
def escaped (quoted : Bool) : Text.Scanner Piece := fun cs =>
  match cs with
  | [] => none
  | c :: cs =>
    if c = '\n' then some (.text "" quoted, cs)
    else if quoted && c ≠ '$' && c ≠ '\x60' && c ≠ '\x22' && c ≠ '\\' then
      some (.text (.ofList ['\\', c]) true, cs)
    else some (.text (.singleton c) true, cs)

/-- Take the pieces up to the closing double quote; no more than `fuel` of them. -/
def doubleQuoted : Nat → Text.Scanner Word
  | 0 => malformed
  | fuel + 1 => do
    if ← take? ['\x22'] then return [.text "" true]
    else if ← take? ['$'] then return (← parameter true) :: (← doubleQuoted fuel)
    else if ← take? ['\\'] then return (← escaped true) :: (← doubleQuoted fuel)
    else
      let cs ← takeWhile fun c => c ≠ '\x22' && c ≠ '$' && c ≠ '\\'
      return .text (.ofList cs) true :: (← doubleQuoted fuel)

/-- Take the pieces of a word; no more than `fuel` of them. -/
def word : Nat → Text.Scanner Word
  | 0 => malformed
  | fuel + 1 => do
    match ← peek with
    | none => return []
    | some '\x27' =>
      take ['\x27']
      let cs ← takeWhile (· ≠ '\x27')
      take ['\x27']
      return .text (.ofList cs) true :: (← word fuel)
    | some '\x22' =>
      take ['\x22']
      return (← doubleQuoted (fuel + 1)) ++ (← word fuel)
    | some '\\' =>
      take ['\\']
      return (← escaped false) :: (← word fuel)
    | some '$' =>
      take ['$']
      return (← parameter false) :: (← word fuel)
    | some c =>
      if endsWord c then return []
      else
        take [c]
        return .text (.singleton c) false :: (← word fuel)

/-- The operators, longer ones before those with which they begin. -/
def operators : List String := ["&&", "||", ">>", ">", ";"]

/-- Take an operator, if one comes next. -/
def operator? : Text.Scanner (Option String) := fun cs =>
  match operators.find? fun o => o.toList.isPrefixOf cs with
  | some o => some (some o, cs.drop o.length)
  | none => some (none, cs)

/-- The parts of a script; no more than `fuel` of them. -/
def tokens : Nat → Text.Scanner (List Token)
  | 0 => malformed
  | fuel + 1 => do
    pass fun c => c == ' ' || c == '\t'
    match ← peek with
    | none => return []
    | some '\n' =>
      take ['\n']
      return .operator ";" :: (← tokens fuel)
    | some '#' =>
      pass (· ≠ '\n')
      tokens fuel
    | some c =>
      match ← operator? with
      | some o => return .operator o :: (← tokens fuel)
      | none =>
        if endsWord c then malformed
        else
          let w ← word (fuel + 1)
          return .word w :: (← tokens fuel)

/-- The word as it is written, if nothing in it is quoted or a parameter. -/
def plain? : Word → Option String
  | [] => some ""
  | .text s false :: w => (plain? w).map (s ++ ·)
  | _ => none

end AppScaffold.Shell
