import AppScaffold.Answer
import AppScaffold.Component
import AppScaffold.Dialogue.Basic
import AppScaffold.Method
import AppScaffold.Project
import AppScaffold.Request

/-!
# Dialogues about single artifacts

The name of the artifact is known beforehand. A dialogue asks for what else its request needs: the
registry of a screen, the variant and the elements of a component, the methods of network functions
and the screen for which they are.
-/

namespace AppScaffold

/-- What is known of a screen: the archetype, once the registry is chosen. -/
structure ScreenDialogue where
  /-- The labels of the registries between which there is a choice. -/
  registries : List String
  /-- The archetype that goes with the registry. -/
  archetype : Option Archetype
deriving DecidableEq

namespace ScreenDialogue

/-- The label of a registry in the menu. -/
def label (registry : Path) : String := registry.fileStem.getD registry.text

/-- There is a choice only if the project has a list of screens before sign-in. -/
def start (layout : Layout) (v : Volume) (root : Path) : ScreenDialogue :=
  if v.isFile (root.join layout.loginRegistry) then
    ⟨[label layout.screenRegistry, label layout.loginRegistry], none⟩
  else ⟨[], some .screen⟩

/-- A screen before sign-in needs no choice. -/
def login : ScreenDialogue := ⟨[], some .loginScreen⟩

/-- The question, while the registry is open. -/
def question (s : ScreenDialogue) : Option Question :=
  if s.archetype = none then
    some ⟨"Which screen registry should it be added to?", .choice s.registries⟩
  else none

/-- The first registry is that of the main stack. -/
def respond (s : ScreenDialogue) (raw : String) : Except Objection ScreenDialogue := do
  let index ← Answer.choice raw s.registries
  return { s with archetype := some (if index = 0 then .screen else .loginScreen) }

end ScreenDialogue

/-- The dialogue about a screen, from a state. -/
def screenDialogue (name : String) (start : ScreenDialogue) : Dialogue ScreenDialogue Request where
  topic := "screen"
  start := start
  question := ScreenDialogue.question
  respond := ScreenDialogue.respond
  result := fun s => s.archetype.map fun a => ⟨a, .ofList [("name", .text name)]⟩

/-- What is known of a component, and what is asked next. -/
inductive ComponentDialogue where
  /-- Which element does it wrap? -/
  | variant
  /-- Are there to be elements inside? -/
  | wantElements (variant : Variant)
  /-- Which elements? -/
  | elements (variant : Variant)
  /-- Everything is known. -/
  | done (variant : Variant) (elements : List String)
deriving DecidableEq

namespace ComponentDialogue

/-- The question of the state. -/
def question : ComponentDialogue → Option Question
  | variant => some ⟨"Which kind of component?", .choice (Variant.all.map Variant.name)⟩
  | wantElements _ => some ⟨"Do you want to add elements inside it?", .yesNo false⟩
  | elements _ => some ⟨"Which elements? (comma separated, e.g. Text, Image)", .text none⟩
  | done .. => none

/-- The state after an answer; elements are asked for only where there is a slot. -/
def respond (s : ComponentDialogue) (raw : String) : Except Objection ComponentDialogue :=
  match s with
  | variant =>
    match Variant.ofText? raw with
    | none => .error (.unknownChoice (Variant.all.map Variant.name))
    | some v => .ok (if v.hasSlot then wantElements v else done v [])
  | wantElements v => do
    if ← Answer.yesNo raw false then return elements v else return done v []
  | elements v => do return done v (← Answer.identifierList raw)
  | done .. => .ok s

/-- The request, when everything is known. -/
def request? (name : String) : ComponentDialogue → Option Request
  | done v items =>
    some ⟨.component, .ofList
      ([("name", .text name), ("variant", .text v.name)] ++
        if items.isEmpty then [] else [("elements", .list items)])⟩
  | _ => none

end ComponentDialogue

/-- The dialogue about a component. -/
def componentDialogue (name : String) : Dialogue ComponentDialogue Request where
  topic := "component"
  start := .variant
  question := ComponentDialogue.question
  respond := ComponentDialogue.respond
  result := ComponentDialogue.request? name

/-- What is known of network functions, and what is asked next. -/
inductive NetworkDialogue where
  /-- For which of these screens are they? -/
  | screen (screens : List String)
  /-- Which methods? -/
  | method (screen : Option String)
  /-- Everything is known. -/
  | done (screen : Option String) (selection : MethodSelection)
deriving DecidableEq

namespace NetworkDialogue

/-- The question of the state. -/
def question : NetworkDialogue → Option Question
  | screen screens => some ⟨"Which screen is it for?", .choice screens⟩
  | method _ => some ⟨"Which HTTP method?", .choice MethodSelection.choices⟩
  | done .. => none

/-- The state after an answer. -/
def respond (s : NetworkDialogue) (raw : String) : Except Objection NetworkDialogue :=
  match s with
  | screen screens => do return method screens[← Answer.choice raw screens]?
  | method target =>
    match MethodSelection.ofText? raw with
    | none => .error (.unknownChoice MethodSelection.choices)
    | some selection => .ok (done target selection)
  | done .. => .ok s

/-- The request, when everything is known: without a screen the functions are shared. -/
def request? (name : String) : NetworkDialogue → Option Request
  | done target selection =>
    let shared := [("name", .text name), ("method", .text selection.text)]
    some (match target with
      | none => ⟨.apiFunction, .ofList shared⟩
      | some name => ⟨.screenApi, .ofList (shared ++ [("screen", .text name)])⟩)
  | _ => none

end NetworkDialogue

/-- The dialogue about network functions, from a state. -/
def networkDialogue (name : String) (start : NetworkDialogue) :
    Dialogue NetworkDialogue Request where
  topic := "API"
  start := start
  question := NetworkDialogue.question
  respond := NetworkDialogue.respond
  result := NetworkDialogue.request? name

/-- The dialogue about shared network functions. -/
def sharedNetworkDialogue (name : String) : Dialogue NetworkDialogue Request :=
  networkDialogue name (.method none)

/-- The dialogue about the network functions of one screen; there has to be a screen. -/
def screenNetworkDialogue (name : String) (layout : Layout) (v : Volume) (root : Path) :
    Except Problem (Dialogue NetworkDialogue Request) :=
  match layout.existingScreens v root with
  | [] => .error (.noScreens (root.join layout.screensDir))
  | screens => .ok (networkDialogue name (.screen screens))

end AppScaffold
