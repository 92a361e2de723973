import AppScaffold.CommandLine.Arguments
import AppScaffold.CommandLine.NewProject
import AppScaffold.Config.Written
import AppScaffold.Tools

/-!
# Running commands

A call is carried out from its arguments to its exit code. The name that a command needs is checked
before the settings are loaded. The code is 0 for success, 1 for a failure, which is told on the
channel for errors, and 2 for wrong arguments.
-/

namespace AppScaffold.CommandLine

/-- What is to be done. -/
inductive Action where
  /-- Make a new project. -/
  | newProject (answers : Option Path)
  /-- Generate one artifact. -/
  | generate (target : Target)
  /-- Show the settings. -/
  | showSettings
deriving DecidableEq

/-- What a call asks for. -/
def Call.action (c : Call) : Except Failure Action :=
  match c.form.name with
  | "new" => .ok (.newProject ((c.option "answers").map .ofText))
  | "screen" => do
    return .generate (.screen (← requireName c.word "screen") (c.switch "login"))
  | "component" => do return .generate (.component (← requireName c.word "component"))
  | "reducer" => do return .generate (.reducer (← requireName c.word "reducer"))
  | "store" => .ok (.generate .store)
  | "api" => do return .generate (.sharedNetwork (← requireName c.word "API"))
  | "screen-api" => do return .generate (.screenNetwork (← requireName c.word "API"))
  | _ => .ok .showSettings

/-- The settings as they are shown, with what they come from. -/
def shownSettings (s : Settings) (v : Volume) (root : Path) : Console :=
  let file := root.join configFileName
  let origin := if v.exists? file then file.text else "defaults"
  .line ("# Effective configuration: " ++ origin ++ " + environment") ++ .print s.text

/-- Carry out an action with settings in the directory `root`. -/
def Action.run (a : Action) (s : Settings) (g : Gateway) (v : Volume) (root : Path) :
    Run (Except Failure Unit) :=
  match a with
  | .newProject answers => CommandLine.newProject s g v root answers
  | .generate target => target.generate s v root
  | .showSettings => ⟨[], .ok (), v, shownSettings s v root⟩

/-- What a call finds around it. -/
structure Surroundings where
  /-- The disk, with the working directory. -/
  volume : Volume
  /-- The variables of the environment. -/
  environment : Environment.Variables := []
  /-- The programs that can be run. -/
  programs : Programs := Program.known

/-- The directory that a call is about: the one that it names, or the working directory. -/
def Call.root (c : Call) (v : Volume) : Path :=
  ((c.option "root").map Path.ofText).getD (Location.path v.cwd)

/-- Carry out a call. -/
def Call.run (c : Call) (around : Surroundings) : Run (Except Failure Unit) :=
  let v := around.volume
  let root := c.root v
  let failed (f : Failure) : Run (Except Failure Unit) := ⟨[], .error f, v, {}⟩
  match c.action with
  | .error f => failed f
  | .ok action =>
    match Settings.load v around.environment root with
    | .error p => failed (.configuration p)
    | .ok s => action.run s (s.tools.gateway around.programs) v root

/-- What is told of a call that has been carried out, and its exit code. -/
def finish (r : Run (Except Failure Unit)) : Finished :=
  match r.result with
  | .ok () => ⟨.code 0, r.volume, r.console⟩
  | .error f => ⟨.code 1, r.volume, r.console ++ .errorLine (f.text r.volume)⟩

/-- The version of the program. -/
def version : String := "expo-scaffold 0.1.0"

/-- How the program is called. -/
def usage : String := "Usage: expo-scaffold [OPTIONS] <COMMAND>"

/-- Carry out a call from its arguments. -/
def execute (args : List String) (around : Surroundings) : Finished :=
  match Call.ofArguments args with
  | .ok c => finish (c.run around)
  | .error .version => ⟨.code 0, around.volume, .line version⟩
  | .error .help => ⟨.code 0, around.volume, .line usage⟩
  | .error .invalid => ⟨.code 2, around.volume, .errorLine usage⟩

end AppScaffold.CommandLine
