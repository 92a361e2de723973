import AppScaffold.Answer
import AppScaffold.Dialogue.Machine
import AppScaffold.Request

/-!
# The machine for a new project

It keeps the step that it is in and a field for everything that is found out. The fields have values
from the beginning, and each answer overwrites one of them. The question about the next screen goes by
a number that is counted on its own, beside the list of the screens.
-/

namespace AppScaffold

/-- What is asked next. -/
inductive ProjectStep where
  /-- What is the name of the project? -/
  | projectName
  /-- Are there to be screens? -/
  | wantScreens
  /-- How many screens? -/
  | screenCount
  /-- What is the name of the screen with this number, the first one having number zero? -/
  | screenName (index : Nat)
  /-- Is there to be a login screen? -/
  | wantLogin
  /-- Is there to be a network interface? -/
  | wantApi
  /-- Which is its base address? -/
  | baseUrl
  /-- Nothing is asked any more. -/
  | done
deriving DecidableEq

/-- The question of the step. -/
def ProjectStep.question : ProjectStep → Option Question
  | projectName => some ⟨"What is the name of your project?", .text none⟩
  | wantScreens => some ⟨"Do you want to create screens?", .yesNo true⟩
  | screenCount => some ⟨"How many screens do you want to create?", .text none⟩
  | screenName index => some ⟨"Name of screen " ++ toString (index + 1) ++ "?", .text none⟩
  | wantLogin => some ⟨"Do you want a login screen?", .yesNo false⟩
  | wantApi => some ⟨"Do you want to create an API folder?", .yesNo true⟩
  | baseUrl => some ⟨"What is the base URL of your API?", .text (some Address.proposed)⟩
  | done => none

/-- The fields of the machine. -/
structure ProjectMachine where
  /-- The questions that are asked at all. -/
  features : Features
  /-- The directories of the project. -/
  layout : Layout
  /-- What is asked next. -/
  step : ProjectStep := .projectName
  /-- The name of the project. -/
  projectName : Option String := none
  /-- How many screens there are to be. -/
  screenCount : Nat := 0
  /-- The names of the screens. -/
  screens : List String := []
  /-- There is a login screen. -/
  login : Bool := false
  /-- The base address of the network interface. -/
  baseUrl : Option String := none

namespace ProjectMachine

/-- The machine before the first question. -/
def new (features : Features) (layout : Layout) : ProjectMachine := { features, layout }

/-- The step when the login is settled. -/
def afterLogin (m : ProjectMachine) : ProjectStep :=
  if m.features.askApi then .wantApi else .done

/-- The step when the screens are settled. -/
def afterScreens (m : ProjectMachine) : ProjectStep :=
  if m.features.askLogin then .wantLogin else m.afterLogin

/-- What an answer to the question of a step writes down, and the step that it leads to. -/
def take (q : Question) (raw : String) : ProjectStep → EStateM Problem ProjectMachine ProjectStep
  | .projectName => do
    let name ← q.check raw (Answer.projectName raw)
    modify fun m => { m with projectName := some name }
    return .wantScreens
  | .wantScreens => do
    if ← q.check raw (Answer.yesNo raw true) then return .screenCount
    else return (← get).afterScreens
  | .screenCount => do
    let count ← q.check raw (Answer.count raw)
    modify fun m => { m with screenCount := count }
    if count = 0 then return (← get).afterScreens else return .screenName 0
  | .screenName index => do
    let name ← q.check raw (Answer.identifier raw)
    if name ∈ (← get).screens then throw (.invalidAnswer q.prompt raw (.listedScreen name))
    modify fun m => { m with screens := m.screens ++ [name] }
    if index + 1 < (← get).screenCount then return .screenName (index + 1)
    else return (← get).afterScreens
  | .wantLogin => do
    let login ← q.check raw (Answer.yesNo raw false)
    modify fun m => { m with login }
    if login && loginScreenName ∈ (← get).screens then
      modify fun m => { m with login := false }
      throw (.invalidAnswer q.prompt raw (.listedScreen loginScreenName))
    return (← get).afterLogin
  | .wantApi => do
    if ← q.check raw (Answer.yesNo raw true) then return .baseUrl else return .done
  | .baseUrl => do
    let url ← q.check raw (Answer.baseUrl raw Address.proposed)
    modify fun m => { m with baseUrl := some url }
    return .done
  | .done => throw (Machine.unfinished "project")

/-- What an answer does. The step is written last, when nothing can be refused any more. -/
def answer (raw : String) : EStateM Problem ProjectMachine Unit := do
  let step := (← get).step
  match step.question with
  | none => throw (Machine.unfinished "project")
  | some q => do
    let next ← take q raw step
    modify fun m => { m with step := next }

/-- The plan, when nothing is asked any more. -/
def finish (m : ProjectMachine) : Except Problem Plan :=
  match m.step, m.projectName with
  | .done, some name => .ok (.project name m.screens m.login m.baseUrl m.layout)
  | _, _ => .error (Machine.unfinished "project")

end ProjectMachine

/-- The machine that finds out the plan of a new project. -/
def projectMachine : Machine ProjectMachine Plan where
  question := fun m => m.step.question
  answer := ProjectMachine.answer
  finish := ProjectMachine.finish

end AppScaffold
