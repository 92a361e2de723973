import AppScaffold.Component
import AppScaffold.Dialogue.Artifact
import AppScaffold.Dialogue.Machine
import AppScaffold.Method

/-!
# The machines for single artifacts

Each of them has the name of the artifact from the beginning, and a field for everything else that the
request may need. A field that is still empty at the end is left out of the request.
-/

namespace AppScaffold

/-- The fields of the machine for a screen. -/
structure ScreenMachine where
  /-- The name of the screen. -/
  name : String
  /-- The labels of the registries between which there is a choice. -/
  registries : List String
  /-- The archetype that goes with the registry, once it is chosen. -/
  archetype : Option Archetype

namespace ScreenMachine

/-- There is a choice only if the project has a list of screens before sign-in. -/
def new (name : String) (layout : Layout) (v : Volume) (root : Path) : ScreenMachine :=
  if v.isFile (root.join layout.loginRegistry) then
    ⟨name, [ScreenDialogue.label layout.screenRegistry,
      ScreenDialogue.label layout.loginRegistry], none⟩
  else ⟨name, [], some .screen⟩

/-- A screen before sign-in needs no choice. -/
def login (name : String) : ScreenMachine := ⟨name, [], some .loginScreen⟩

/-- The question, while the registry is open. -/
def question (m : ScreenMachine) : Option Question :=
  if m.archetype = none then
    some ⟨"Which screen registry should it be added to?", .choice m.registries⟩
  else none

/-- What an answer does: the first registry is that of the main stack. -/
def answer (raw : String) : EStateM Problem ScreenMachine Unit := do
  match (← get).question with
  | none => throw (Machine.unfinished "screen")
  | some q => do
    let index ← q.check raw (Answer.choice raw (← get).registries)
    modify fun m => { m with archetype := some (if index = 0 then .screen else .loginScreen) }

/-- The request, once the registry is chosen. -/
def finish (m : ScreenMachine) : Except Problem Request :=
  match m.archetype with
  | some a => .ok ⟨a, .ofList [("name", .text m.name)]⟩
  | none => .error (Machine.unfinished "screen")

end ScreenMachine

/-- The machine that finds out the request for a screen. -/
def screenMachine : Machine ScreenMachine Request where
  question := ScreenMachine.question
  answer := ScreenMachine.answer
  finish := ScreenMachine.finish

/-- What is asked next about a component. -/
inductive ComponentStep where
  /-- Which element does it wrap? -/
  | variant
  /-- Are there to be elements inside? -/
  | wantElements
  /-- Which elements? -/
  | elements
  /-- Nothing is asked any more. -/
  | done
deriving DecidableEq

/-- The question of the step. -/
def ComponentStep.question : ComponentStep → Option Question
  | variant => some ⟨"Which kind of component?", .choice (Variant.all.map Variant.name)⟩
  | wantElements => some ⟨"Do you want to add elements inside it?", .yesNo false⟩
  | elements => some ⟨"Which elements? (comma separated, e.g. Text, Image)", .text none⟩
  | done => none

/-- The fields of the machine for a component. -/
structure ComponentMachine where
  /-- The name of the component. -/
  name : String
  /-- What is asked next. -/
  step : ComponentStep := .variant
  /-- The element that it wraps. -/
  variant : Option Variant := none
  /-- The elements inside. -/
  elements : List String := []

namespace ComponentMachine

/-- The machine before the first question. -/
def new (name : String) : ComponentMachine := { name }

/-- What an answer to the question of a step writes down, and the step that it leads to. -/
def take (q : Question) (raw : String) :
    ComponentStep → EStateM Problem ComponentMachine ComponentStep
  | .variant => do
    let variant ← q.check raw ((Variant.ofText? raw).elim
      (.error (.unknownChoice (Variant.all.map Variant.name))) .ok)
    modify fun m => { m with variant := some variant }
    if variant.hasSlot then return .wantElements else return .done
  | .wantElements => do
    if ← q.check raw (Answer.yesNo raw false) then return .elements else return .done
  | .elements => do
    let elements ← q.check raw (Answer.identifierList raw)
    modify fun m => { m with elements }
    return .done
  | .done => throw (Machine.unfinished "component")

/-- What an answer does. -/
def answer (raw : String) : EStateM Problem ComponentMachine Unit := do
  let step := (← get).step
  match step.question with
  | none => throw (Machine.unfinished "component")
  | some q => do
    let next ← take q raw step
    modify fun m => { m with step := next }

/-- The request, when nothing is asked any more. -/
def finish (m : ComponentMachine) : Except Problem Request :=
  match m.step, m.variant with
  | .done, some variant =>
    .ok ⟨.component, .ofList
      ([("name", .text m.name), ("variant", .text variant.name)] ++
        if m.elements.isEmpty then [] else [("elements", .list m.elements)])⟩
  | _, _ => .error (Machine.unfinished "component")

end ComponentMachine

/-- The machine that finds out the request for a component. -/
def componentMachine : Machine ComponentMachine Request where
  question := fun m => m.step.question
  answer := ComponentMachine.answer
  finish := ComponentMachine.finish

/-- What is asked next about network functions. -/
inductive NetworkStep where
  /-- For which screen are they? -/
  | screen
  /-- Which methods? -/
  | method
  /-- Nothing is asked any more. -/
  | done
deriving DecidableEq

/-- The fields of the machine for network functions. -/
structure NetworkMachine where
  /-- Shared functions, or those of a screen. -/
  archetype : Archetype
  /-- The name of the functions. -/
  name : String
  /-- The screens between which there is a choice. -/
  screens : List String
  /-- What is asked next. -/
  step : NetworkStep
  /-- The screen for which they are. -/
  screen : Option String := none
  /-- The methods. -/
  method : Option MethodSelection := none

namespace NetworkMachine

/-- The machine for shared functions. -/
def shared (name : String) : NetworkMachine :=
  { archetype := .apiFunction, name, screens := [], step := .method }

/-- The machine for the functions of one screen; there has to be a screen. -/
def forScreen (name : String) (layout : Layout) (v : Volume) (root : Path) :
    Except Problem NetworkMachine :=
  match layout.existingScreens v root with
  | [] => .error (.noScreens (root.join layout.screensDir))
  | screens => .ok { archetype := .screenApi, name, screens, step := .screen }

/-- The question of the step. -/
def question (m : NetworkMachine) : Option Question :=
  match m.step with
  | .screen => some ⟨"Which screen is it for?", .choice m.screens⟩
  | .method => some ⟨"Which HTTP method?", .choice MethodSelection.choices⟩
  | .done => none

/-- What an answer to the question of a step writes down, and the step that it leads to. -/
def take (q : Question) (raw : String) : NetworkStep → EStateM Problem NetworkMachine NetworkStep
  | .screen => do
    let index ← q.check raw (Answer.choice raw (← get).screens)
    modify fun m => { m with screen := m.screens[index]? }
    return .method
  | .method => do
    let method ← q.check raw ((MethodSelection.ofText? raw).elim
      (.error (.unknownChoice MethodSelection.choices)) .ok)
    modify fun m => { m with method := some method }
    return .done
  | .done => throw (Machine.unfinished "API")

/-- What an answer does. -/
def answer (raw : String) : EStateM Problem NetworkMachine Unit := do
  match (← get).question with
  | none => throw (Machine.unfinished "API")
  | some q => do
    let next ← take q raw (← get).step
    modify fun m => { m with step := next }

/-- The request, when nothing is asked any more. -/
def finish (m : NetworkMachine) : Except Problem Request :=
  match m.step, m.method with
  | .done, some method =>
    .ok ⟨m.archetype, .ofList
      ([("name", .text m.name), ("method", .text method.text)] ++
        (m.screen.map fun screen => ("screen", .text screen)).toList)⟩
  | _, _ => .error (Machine.unfinished "API")

end NetworkMachine

/-- The machine that finds out the request for network functions. -/
def networkMachine : Machine NetworkMachine Request where
  question := NetworkMachine.question
  answer := NetworkMachine.answer
  finish := NetworkMachine.finish

end AppScaffold
