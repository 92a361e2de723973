import AppScaffold.Program.Basic

/-!
# Small programs

Programs that do nothing but succeed or fail, that print their arguments, and that make directories
and files.
-/

namespace AppScaffold.Program

/-- Does nothing. -/
def succeed : Program := fun _ v => ⟨.code 0, v, {}⟩

/-- Does nothing and fails. -/
def fail : Program := fun _ v => ⟨.code 1, v, {}⟩

/-- The arguments with spaces between them. -/
def spaced : List String → String
  | [] => ""
  | [a] => a
  | a :: as => a ++ " " ++ spaced as

/-- Prints its arguments on a line, which is not ended when the first argument says so. -/
def echo : Program := fun args v =>
  let (args, ending) := match args with
    | "-n" :: args => (args, "")
    | args => (args, "\n")
  ⟨.code 0, v, .print (spaced args ++ ending)⟩

/-- A program that goes through its arguments; it fails if one of them fails. -/
def each (step : Volume → String → Except String Unit × Volume) : Program
  | [], v => ⟨.code 0, v, {}⟩
  | a :: as, v =>
    match step v a with
    | (.ok (), w) => each step as w
    | (.error message, w) =>
      let later := each step as w
      ⟨.code 1, later.volume, .errorLine message ++ later.console⟩

/-- The reason in a message, without the number of the fault. -/
def reason (e : Fault) : String := .ofList (e.message.toList.takeWhile (· ≠ '(')).dropLast

/-- Make one directory of the arguments, with those above it if `parents` says so. -/
def makeDirectory (parents : Bool) (v : Volume) (name : String) : Except String Unit × Volume :=
  match if parents then v.mkdirAll (.ofText name) else v.mkdir (.ofText name) with
  | (.ok (), w) => (.ok (), w)
  | (.error e, w) =>
    (.error ("mkdir: cannot create directory ‘" ++ name ++ "’: " ++ reason e), w)

/-- The argument is an option. -/
def isOption (a : String) : Bool := a.startsWith "-" && a ≠ "-"

/-- Makes directories. -/
def mkdir : Program := fun args v =>
  let known := ["-p", "--parents"]
  match args.find? fun a => isOption a && !known.contains a with
  | some a =>
    ⟨.code 1, v, { err := "mkdir: unrecognized option '" ++ a ++ "'\n" ++
      "Try 'mkdir --help' for more information.\n" }⟩
  | none =>
    match args.filter fun a => !isOption a with
    | [] =>
      ⟨.code 1, v, { err := "mkdir: missing operand\n" ++
        "Try 'mkdir --help' for more information.\n" }⟩
    | names => each (makeDirectory (args.any known.contains)) names v

/-- Makes empty files where nothing is. -/
def touch : Program :=
  each fun v name =>
    if v.exists? (.ofText name) then (.ok (), v)
    else match v.writeFile (.ofText name) "" with
      | (.ok (), w) => (.ok (), w)
      | (.error e, w) => (.error ("touch: cannot touch '" ++ name ++ "': " ++ reason e), w)

/-- The small programs by name. -/
def small : Programs
  | "true" | ":" => some succeed
  | "false" => some fail
  | "echo" => some echo
  | "mkdir" => some mkdir
  | "touch" => some touch
  | _ => none

end AppScaffold.Program
