import AppScaffold.Shell.Word

/-!
# Commands of shell scripts

A script is a list of commands. A command is a call of a program or a loop over words; commands may
depend on the success of those before them, and what they print may go into a file.
-/

namespace AppScaffold.Shell

/-- A command. -/
inductive Command where
  /-- Nothing. -/
  | skip
  /-- Call a program by the first word with the others as its arguments. -/
  | call (words : List Word)
  /-- Carry out the body for each value of a variable. -/
  | loop (variableName : String) (values : List Word) (body : Command)
  /-- One command after the other. -/
  | both (first second : Command)
  /-- The second command only after success of the first. -/
  | ifSuccess (first second : Command)
  /-- The second command only after failure of the first. -/
  | ifFailure (first second : Command)
  /-- What the command prints goes into a file, perhaps behind what is in it. -/
  | into (c : Command) (behind : Bool) (target : Word)

/-- A parser takes tokens from the front of what is left of a script. -/
abbrev Parser (α : Type) := StateT (List Token) Option α

namespace Parser

/-- The script is malformed. -/
def malformed {α : Type} : Parser α := fun _ => none

/-- The next token, which stays. -/
def peek : Parser (Option Token) := fun ts => some (ts.head?, ts)

/-- Pass over the next token. -/
def skip : Parser Unit := fun ts => some ((), ts.tail)

/-- The next token is an unquoted word of this text. -/
def isNext (s : String) : Parser Bool := fun ts =>
  match ts with
  | .word w :: _ => some (plain? w = some s, ts)
  | _ => some (false, ts)

/-- Take an unquoted word of this text. -/
def expect (s : String) : Parser Unit := do
  if ← isNext s then skip else malformed

/-- Pass over the ends of commands. -/
def ends : Parser Unit := fun ts => some ((), ts.dropWhile (· = .operator ";"))

/-- Take words up to the next operator. -/
def words : Parser (List Word) := fun ts =>
  let isWord : Token → Bool
    | .word _ => true
    | .operator _ => false
  let taken := ts.takeWhile isWord
  some (taken.filterMap fun t =>
    match t with
    | .word w => some w
    | .operator _ => none, ts.drop taken.length)

/-- Take the name of a variable. -/
def variableName : Parser String := fun ts =>
  match ts with
  | .word w :: ts => (plain? w).map (·, ts)
  | _ => none

/-- The words between the name of a loop variable and the body; all arguments if there are none. -/
def values : Parser (List Word) := do
  if ← isNext "in" then
    skip
    words
  else return [[.parameter "@" true]]

/-- A call with its redirections; no more than `fuel` of its parts. -/
def callFrom (behindWords : List Word) : Nat → Parser Command
  | 0 => malformed
  | fuel + 1 => do
    match ← peek with
    | some (.word w) =>
      skip
      callFrom (behindWords ++ [w]) fuel
    | some (.operator o) =>
      if o = ">" || o = ">>" then
        skip
        match ← peek with
        | some (.word target) =>
          skip
          return .into (← callFrom behindWords fuel) (o = ">>") target
        | _ => malformed
      else return .call behindWords
    | none => return .call behindWords

/-- The redirections behind a command; no more than `fuel` of them. -/
def redirections (c : Command) : Nat → Parser Command
  | 0 => malformed
  | fuel + 1 => do
    match ← peek with
    | some (.operator o) =>
      if o = ">" || o = ">>" then
        skip
        match ← peek with
        | some (.word target) =>
          skip
          redirections (.into c (o = ">>") target) fuel
        | _ => malformed
      else return c
    | _ => return c

/-- The commands that depend on the success of the ones before; no more than `fuel` of them. -/
def chainFrom (one : Parser Command) (c : Command) : Nat → Parser Command
  | 0 => malformed
  | fuel + 1 => do
    match ← peek with
    | some (.operator "&&") =>
      skip
      ends
      chainFrom one (.ifSuccess c (← one)) fuel
    | some (.operator "||") =>
      skip
      ends
      chainFrom one (.ifFailure c (← one)) fuel
    | _ => return c

/-- Commands up to the end of the script or of a loop; no more than `fuel` of them. -/
def list (one : Parser Command) : Nat → Parser Command
  | 0 => malformed
  | fuel + 1 => do
    ends
    if (← peek).isNone || (← isNext "done") then return .skip
    else
      let c ← chainFrom one (← one) (fuel + 1)
      match ← peek with
      | some (.operator ";") => return .both c (← list one fuel)
      | none => return c
      | some _ => malformed

/-- A call or a loop, with loops in it no deeper than `depth`. -/
def command : Nat → Parser Command
  | 0 => malformed
  | depth + 1 => do
    if ← isNext "for" then
      skip
      let name ← variableName
      let vs ← values
      ends
      expect "do"
      let body ← list (command depth) (depth + 1)
      expect "done"
      redirections (.loop name vs body) (depth + 1)
    else if ← isNext "do" then malformed
    else
      match ← peek with
      | some (.operator o) => if o = ">" || o = ">>" then callFrom [] (depth + 1) else malformed
      | _ => callFrom [] (depth + 1)

end Parser

/-- The command that a script is, unless it is malformed. -/
def Command.ofText (script : String) : Option Command := do
  let cs := script.toList
  let ts ← Text.Scanner.run (tokens (cs.length + 1)) cs
  match Parser.list (Parser.command (ts.length + 1)) (ts.length + 1) ts with
  | some (c, []) => some c
  | _ => none

end AppScaffold.Shell
