import AppScaffold.Run
import AppScaffold.Shell.Run

/-!
# Running the tools

The calls of outside tools as runs of the programs that the settings name. A program that is not
there, or that has no directory to work in, fails like one that ends badly.
-/

namespace AppScaffold

/-- The programs that can be run: the small ones and the shell. -/
def Program.known : Programs
  | "sh" => some Shell.program
  | name => small name

namespace Tools

/-- Run a program in a directory. -/
def runProgram (programs : Programs) (program : String) (args : List String) (dir : Path)
    (v : Volume) : Reply :=
  let failed (detail : String) : Except Problem Unit :=
    .error (.externalProcessFailed program detail)
  match v.directory dir with
  | .error e => ⟨failed e.message, v, {}⟩
  | .ok loc =>
    match programs program with
    | none => ⟨failed Fault.notFound.message, v, {}⟩
    | some p =>
      let f := p args { v with cwd := loc }
      ⟨if f.status.isSuccess then .ok () else failed f.status.text,
        { f.volume with cwd := v.cwd }, f.console⟩

/-- The tools as the settings say; nothing is run when there are no packages to install. -/
def gateway (t : Tools) (programs : Programs) : Gateway
  | .create project workdir, v =>
    runProgram programs t.initializer
      (t.initializerArgs ++ [project] ++ t.initializerTrailingArgs) workdir v
  | .install project packages, v =>
    if packages.isEmpty then ⟨.ok (), v, {}⟩
    else runProgram programs t.installer (t.installerArgs ++ packages) project v

end Tools

end AppScaffold
