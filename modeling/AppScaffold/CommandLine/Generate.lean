import AppScaffold.CommandLine.Failure
import AppScaffold.Dialogue.Artifact
import AppScaffold.Outcome.Lines
import AppScaffold.Run

/-!
# Commands that generate one artifact

What is not said on the command line would be asked for, but no one is there to answer: a command
succeeds only if nothing has to be asked.
-/

namespace AppScaffold.CommandLine

/-- What to generate. -/
inductive Target where
  /-- A screen, before sign-in or not. -/
  | screen (name : String) (login : Bool)
  /-- A component. -/
  | component (name : String)
  /-- A slice of the state. -/
  | reducer (name : String)
  /-- The store of the state. -/
  | store
  /-- Functions in the shared network module. -/
  | sharedNetwork (name : String)
  /-- Functions in the network module of a screen. -/
  | screenNetwork (name : String)
deriving DecidableEq

/-- Why no question is answered. -/
def noTerminal (_ : Question) : String := "IO error: not a terminal"

/-- What a dialogue finds out when no one answers. -/
def unanswered {σ α : Type} (d : Dialogue σ α) : Except Problem α := (d.drive noTerminal []).result

/-- The request for a target in the project at `root`. -/
def Target.request (t : Target) (l : Layout) (v : Volume) (root : Path) : Except Problem Request :=
  match t with
  | screen name true => unanswered (screenDialogue name .login)
  | screen name false => unanswered (screenDialogue name (.start l v root))
  | component name => unanswered (componentDialogue name)
  | reducer name => .ok ⟨.reducer, .ofList [("name", name)]⟩
  | store => .ok ⟨.store, {}⟩
  | sharedNetwork name => unanswered (sharedNetworkDialogue name)
  | screenNetwork name => (screenNetworkDialogue name l v root).bind fun d => unanswered d

/-- An outcome as it is told. -/
def toldOutcome (o : Outcome) (root : Path) : Console :=
  .lines (("Generated " ++ o.archetype.key) :: o.lines root)

/-- What is said before a request is carried out. -/
def heading (r : Request) : Console :=
  let name := match r.params.text "name" with
    | some name => " " ++ name
    | none => ""
  .line ("\nGenerating " ++ r.archetype.key ++ name)

/-- Carry out a request. -/
def carryOutRequest (s : Settings) (v : Volume) (root : Path) (r : Request) :
    Run (Except Failure Unit) :=
  match s.generate v root r with
  | (.error p, w) => ⟨[], .error (.refused r.archetype p), w, heading r⟩
  | (.ok o, w) =>
    let told := heading r ++ toldOutcome o root
    if o.isSuccess then ⟨[], .ok (), w, told ++ .line "\n✨ Done!"⟩
    else ⟨[], .error (.incomplete r.archetype), w, told⟩

/-- Generate a target in the project at `root`. -/
def Target.generate (t : Target) (s : Settings) (v : Volume) (root : Path) :
    Run (Except Failure Unit) :=
  match t.request s.layout v root with
  | .error p => ⟨[], .error (.undecided p), v, {}⟩
  | .ok r => carryOutRequest s v root r

end AppScaffold.CommandLine
