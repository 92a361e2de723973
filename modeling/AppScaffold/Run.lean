import AppScaffold.Console
import AppScaffold.Generate

/-!
# Carrying out a plan

A project is created by an outside tool, its artifacts are generated in the order of the plan, and
its packages are installed by another tool. Creation must succeed before anything is generated;
requests that are refused and packages that cannot be installed do not stop the run.
-/

namespace AppScaffold

/-- A call of an outside tool. -/
inductive ToolCall where
  /-- Create a project in a directory. -/
  | create (project : String) (workdir : Path)
  /-- Install packages in the directory of a project. -/
  | install (project : Path) (packages : List String)
deriving DecidableEq

/-- What has come of a call of an outside tool. -/
structure Reply where
  /-- Why the tool has failed, if it has. -/
  result : Except Problem Unit
  /-- The disk afterwards. -/
  volume : Volume
  /-- What the tool has printed. -/
  console : Console := {}

/-- What the outside tools do: they succeed or fail, and they may change the disk and print. -/
abbrev Gateway := ToolCall → Volume → Reply

/-- What has become of a plan. -/
structure RunSummary where
  /-- The directory of the project. -/
  projectRoot : Path
  /-- What has become of the accepted requests, in order. -/
  outcomes : List Outcome
  /-- The requests that were refused, in order. -/
  rejected : List (Archetype × Problem)
  /-- Why packages are missing. -/
  installProblem : Option Problem

/-- What has become of each request, in order. -/
def Settings.generateAll (s : Settings) (v : Volume) (root : Path) :
    List Request → List (Archetype × Except Problem Outcome) × Volume
  | [] => ([], v)
  | r :: rs =>
    match s.generate v root r with
    | (result, w) =>
      match s.generateAll w root rs with
      | (results, w') => ((r.archetype, result) :: results, w')

/-- The outcomes among results. -/
def outcomesOf (results : List (Archetype × Except Problem Outcome)) : List Outcome :=
  results.filterMap fun r => r.2.toOption

/-- The refusals among results. -/
def refusalsOf (results : List (Archetype × Except Problem Outcome)) : List (Archetype × Problem) :=
  results.filterMap fun r =>
    match r.2 with
    | .ok _ => none
    | .error e => some (r.1, e)

/-- A run: the calls of outside tools in order, what came of it, the disk afterwards, and what has
been printed. -/
structure Run (α : Type) where
  /-- The calls of outside tools. -/
  calls : List ToolCall
  /-- What came of it. -/
  result : α
  /-- The disk afterwards. -/
  volume : Volume
  /-- What has been printed. -/
  console : Console := {}

/-- Make a call if it is switched on. -/
def callIf (enabled : Bool) (g : Gateway) (call : ToolCall) (v : Volume) :
    Run (Except Problem Unit) :=
  if enabled then
    let reply := g call v
    ⟨[call], reply.result, reply.volume, reply.console⟩
  else ⟨[], .ok (), v, {}⟩

/-- The creation of the project of a plan. -/
def Settings.createProject (s : Settings) (g : Gateway) (v : Volume) (workdir : Path) (p : Plan) :
    Run (Except Problem Unit) :=
  callIf s.features.initializeProject g (.create p.projectName workdir) v

/-- The installation of the packages. -/
def Settings.installPackages (s : Settings) (g : Gateway) (v : Volume) (root : Path) :
    Run (Except Problem Unit) :=
  callIf s.features.installPackages g (.install root s.tools.packages) v

/-- Carry out a plan in a directory. -/
def Settings.runPlan (s : Settings) (g : Gateway) (v : Volume) (workdir : Path) (p : Plan) :
    Run (Except Problem RunSummary) :=
  let creation := s.createProject g v workdir p
  match creation.result with
  | .error e => ⟨creation.calls, .error e, creation.volume, creation.console⟩
  | .ok () =>
    let root := workdir.join (.ofText p.projectName)
    let (results, w) := s.generateAll creation.volume root p.requests
    let installation := s.installPackages g w root
    let installProblem :=
      match installation.result with
      | .ok () => none
      | .error e => some e
    ⟨creation.calls ++ installation.calls,
      .ok ⟨root, outcomesOf results, refusalsOf results, installProblem⟩,
      installation.volume, creation.console ++ installation.console⟩

end AppScaffold
