import AppScaffold.Brief.Reader
import AppScaffold.CommandLine.Generate
import AppScaffold.Dialogue.Project

/-!
# The command for a new project

A project is planned from a brief, created, filled and supplied with packages. The project is
refused when it would be created where something is already.
-/

namespace AppScaffold.CommandLine

/-- The plan of a new project: from the brief in a file, or asked for. -/
def planOf (s : Settings) (v : Volume) (answers : Option Path) : Except Failure Plan :=
  match answers with
  | none => (unanswered (projectDialogue s.features s.layout)).mapError .undecided
  | some file =>
    match v.readText file with
    | .error e => .error (.unreadableBrief file e)
    | .ok text =>
      ((Brief.ofText text).bind fun b => b.toPlan s.features s.layout).mapError .invalidBrief

/-- The result of a request as it is told. -/
def toldResult (root : Path) : Except Problem Outcome → Console
  | .ok o => toldOutcome o root
  | .error p => .errorLine (failedMark ++ " " ++ p.message)

/-- The request has not been carried out in full. -/
def isFailure : Except Problem Outcome → Bool
  | .ok o => !o.isSuccess
  | .error _ => true

/-- What is said when all is done. -/
def success (p : Plan) : Console :=
  .lines ["", "✓ Project created successfully!", "", "Next steps:", "",
    "  1. Navigate to project:", "     $ cd " ++ p.projectName, "",
    "  2. Wrap your app in the navigation container:",
    "     App.js import MainNavigation from './src/Navigation/MainNavigation';", "",
    "  3. Start the development server:", "     $ npx expo start", ""]

/-- Carry out a plan in a directory and tell of it. -/
def carryOutPlan (s : Settings) (g : Gateway) (v : Volume) (workdir : Path) (p : Plan) :
    Run (Except Failure Unit) :=
  let root := workdir.join (.ofText p.projectName)
  let creation := s.createProject g v workdir p
  let begun :=
    Console.lines ["", "Creating Expo project: " ++ p.projectName, ""] ++ creation.console
  match creation.result with
  | .error e => ⟨creation.calls, .error (.notCreated e), creation.volume, begun⟩
  | .ok () =>
    let (results, w) := s.generateAll creation.volume root p.requests
    let generated := results.foldl (fun c r => c ++ toldResult root r.2) begun
    let installation := s.installPackages g w root
    let supplied := generated ++
      (if s.features.installPackages then .lines ["", "Installing dependencies..."] else {}) ++
      installation.console
    let failures := results.countP fun r => isFailure r.2
    let calls := creation.calls ++ installation.calls
    match installation.result with
    | .error e => ⟨calls, .error (.notInstalled e), installation.volume, supplied⟩
    | .ok () =>
      if failures = 0 then ⟨calls, .ok (), installation.volume, supplied ++ success p⟩
      else ⟨calls, .error (.incompleteProject failures), installation.volume, supplied⟩

/-- Make a new project in a directory. -/
def newProject (s : Settings) (g : Gateway) (v : Volume) (workdir : Path) (answers : Option Path) :
    Run (Except Failure Unit) :=
  match planOf s v answers with
  | .error f => ⟨[], .error f, v, {}⟩
  | .ok p =>
    if s.features.initializeProject && v.exists? (workdir.join (.ofText p.projectName)) then
      ⟨[], .error (.projectExists p.projectName), v, {}⟩
    else carryOutPlan s g v workdir p

end AppScaffold.CommandLine
