import AppScaffold.Console
import AppScaffold.Disk.Operations

/-!
# Programs

A program is run with arguments in a working directory. It may change the disk and print, and ends
with a status.
-/

namespace AppScaffold

/-- How a program has ended. -/
inductive ExitStatus where
  /-- By itself, with a code. -/
  | code (n : Nat)
  /-- By a signal. -/
  | signal (n : Nat)
deriving DecidableEq

namespace ExitStatus

/-- The program has done its work. -/
def isSuccess : ExitStatus → Bool
  | code n => n = 0
  | signal _ => false

/-- The name of a signal. -/
def signalName : Nat → Option String
  | 1 => some "SIGHUP"
  | 2 => some "SIGINT"
  | 9 => some "SIGKILL"
  | 13 => some "SIGPIPE"
  | 15 => some "SIGTERM"
  | _ => none

/-- The status in words. -/
def text : ExitStatus → String
  | code n => "exit status: " ++ toString n
  | signal n =>
    "signal: " ++ toString n ++
      match signalName n with
      | some name => " (" ++ name ++ ")"
      | none => ""

end ExitStatus

/-- A program that has ended. -/
structure Finished where
  /-- How it has ended. -/
  status : ExitStatus
  /-- The disk afterwards. -/
  volume : Volume
  /-- What it has printed. -/
  console : Console := {}

/-- What a program does with its arguments, in the working directory of the volume. -/
abbrev Program := List String → Volume → Finished

/-- The programs that can be run, by name. -/
abbrev Programs := String → Option Program

/-- The location of a directory. -/
def Volume.directory (v : Volume) (p : Path) : Except Fault Location :=
  match v.disk.locate v.cwd true p (Disk.steps p) with
  | .ok (.found loc) =>
    if v.disk.get? loc = some .dir then .ok loc else .error .notDirectory
  | .ok (.free ..) => .error .notFound
  | .error e => .error e

end AppScaffold
