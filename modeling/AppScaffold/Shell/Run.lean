import AppScaffold.Program.Files
import AppScaffold.Shell.Command
import AppScaffold.Text.Blank

/-!
# Running shell scripts

A script is run with a name and arguments. It calls the small programs and a few commands of its
own, and ends when its commands are done or one of them ends it.
-/

namespace AppScaffold.Shell

/-- A script in the middle of its work. -/
structure State where
  /-- The name of the script. -/
  name : String
  /-- The arguments. -/
  arguments : List String
  /-- The values of variables, the latest first. -/
  bindings : List (String × String) := []
  /-- The disk, with the working directory. -/
  volume : Volume
  /-- What has been printed and has not gone into a file. -/
  console : Console := {}
  /-- The code of the last command. -/
  last : Nat := 0
  /-- How the script has been ended. -/
  ended : Option ExitStatus := none

namespace State

/-- The value of a parameter that is one text. -/
def value (st : State) (name : String) : String :=
  match name.toList with
  | ['#'] => toString st.arguments.length
  | ['?'] => toString st.last
  | ['$'] => "1"
  | ['0'] => st.name
  | ['*'] => Program.spaced st.arguments
  | cs =>
    match name.toNat? with
    | some n => if cs.all Char.isDigit then (st.arguments[n - 1]?).getD "" else ""
    | none => (st.bindings.lookup name).getD ""

/-- The texts that a piece stands for: what is to be joined to the text before it, then what begins
new words. Text that is not quoted is cut at blanks. -/
def pieces (st : State) : Piece → List String
  | .text s _ => [s]
  | .parameter "@" true => st.arguments
  | .parameter name true => [st.value name]
  | .parameter name false =>
    let s := if name = "@" then Program.spaced st.arguments else st.value name
    Text.split ' ' (.ofList (s.toList.map fun c => if c == '\t' || c == '\n' then ' ' else c))

/-- The piece is kept even if it is empty. -/
def isQuoted : Piece → Bool
  | .text s quoted => quoted || s ≠ ""
  | .parameter name quoted => quoted && name ≠ "@"

/-- The words that pieces stand for. `current` is the word that has been begun; `kept` says that it
counts even if it is empty. -/
def expandFrom (st : State) (current : String) (kept : Bool) : Word → List String
  | [] => if kept || current ≠ "" then [current] else []
  | p :: ps =>
    let keeps := isQuoted p
    match st.pieces p with
    | [] => st.expandFrom current kept ps
    | first :: more =>
      match more.getLast? with
      | none => st.expandFrom (current ++ first) (kept || keeps) ps
      | some last =>
        let all := p = .parameter "@" true
        let begun := current ++ first
        (if all || kept || begun ≠ "" then [begun] else []) ++
          more.dropLast.filter (fun s => all || s ≠ "") ++ st.expandFrom last all ps

/-- The words that a word stands for. -/
def expand (st : State) (w : Word) : List String := st.expandFrom "" false w

/-- The script with a message of the shell and a code. -/
def complain (st : State) (message : String) (code : Nat) : State :=
  { st with console := st.console ++ .errorLine ("sh: 1: " ++ message), last := code }

/-- The script ended by itself with a code. -/
def exit (st : State) (code : Nat) : State := { st with last := code, ended := some (.code code) }

/-- The number of a signal in a call. -/
def signalNumber (s : String) : Option Nat :=
  let bare := String.ofList (s.toList.dropWhile (· == '-'))
  match bare.toNat? with
  | some n => some n
  | none => [1, 2, 9, 13, 15].find? fun n =>
      ExitStatus.signalName n = some bare || ExitStatus.signalName n = some ("SIG" ++ bare)

/-- Call a command with its arguments. -/
def call (st : State) (name : String) (args : List String) : State :=
  match name, args with
  | "exit", [] => st.exit st.last
  | "exit", code :: _ =>
    match code.toNat? with
    | some n => st.exit (n % 256)
    | none => (st.complain ("exit: Illegal number: " ++ code) 2).exit 2
  | "cd", dir :: _ =>
    match st.volume.directory (.ofText dir) with
    | .ok loc => { st with volume := { st.volume with cwd := loc }, last := 0 }
    | .error _ => st.complain ("cd: can't cd to " ++ dir) 2
  | "kill", args =>
    let signal := match args with
      | [s, _] => signalNumber s
      | _ => some 15
    match signal with
    | some n => { st with ended := some (.signal n) }
    | none => st.complain "kill: Illegal option" 2
  | _, _ =>
    match Program.small name with
    | none => st.complain (name ++ ": not found") 127
    | some program =>
      let f := program args st.volume
      let code := match f.status with
        | .code n => n
        | .signal n => 128 + n
      { st with volume := f.volume, console := st.console ++ f.console, last := code }

/-- Put what has been printed into a file, behind `before`. -/
def store (st : State) (target : Path) (before : String) (printed : Console) : State :=
  { st with
    volume := (st.volume.writeFile target (before ++ printed.out)).2
    console := st.console ++ { err := printed.err } }

/-- Carry out a command with what it prints going into a file. -/
def redirect (st : State) (behind : Bool) (target : Path) (run : State → State) : State :=
  let before := if behind then (st.volume.readText target).toOption.getD "" else ""
  match st.volume.writeFile target before with
  | (.error _, _) => st.complain ("cannot create " ++ target.text ++ ": Directory nonexistent") 2
  | (.ok (), v) =>
    let inner := run { st with volume := v, console := {} }
    { inner with console := st.console }.store target before inner.console

/-- Carry out a command. -/
def run (c : Command) (st : State) : State :=
  if st.ended.isSome then st
  else match c with
    | .skip => st
    | .call words =>
      match words.flatMap st.expand with
      | [] => { st with last := 0 }
      | name :: args => st.call name args
    | .loop x values body =>
      (values.flatMap st.expand).foldl
        (fun st value => run body { st with bindings := (x, value) :: st.bindings })
        { st with last := 0 }
    | .both first second => run second (run first st)
    | .ifSuccess first second =>
      let after := run first st
      if after.last = 0 then run second after else after
    | .ifFailure first second =>
      let after := run first st
      if after.last = 0 then after else run second after
    | .into c behind target =>
      st.redirect behind (.ofText (Program.spaced (st.expand target))) (run c)
termination_by structural c

/-- What a script comes to. -/
def finished (st : State) : Finished := ⟨st.ended.getD (.code st.last), st.volume, st.console⟩

end State

/-- Runs a script that is given with its name and arguments. -/
def program : Program := fun args v =>
  match args with
  | "-c" :: script :: rest =>
    let st : State := { name := rest.head?.getD "sh", arguments := rest.tail, volume := v }
    match Command.ofText script with
    | some c => (st.run c).finished
    | none => (st.complain "Syntax error" 2).finished
  | _ => ⟨.code 2, v, {}⟩

end AppScaffold.Shell
