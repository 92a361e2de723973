import AppScaffold.Answer
import AppScaffold.Dialogue.Basic
import AppScaffold.Request

/-!
# The dialogue about a new project

It asks for the name of the project, for the screens one by one, for a login screen and for the
network interface. The last two questions are asked only if the features say so.
-/

namespace AppScaffold

/-- What is known, and what is asked next. -/
inductive ProjectState where
  /-- Nothing is known. -/
  | projectName
  /-- Are there to be screens? -/
  | wantScreens (project : String)
  /-- How many screens? -/
  | screenCount (project : String)
  /-- Which is the next screen? -/
  | screenName (project : String) (count : Nat) (screens : List String)
  /-- Is there to be a login screen? -/
  | wantLogin (project : String) (screens : List String)
  /-- Is there to be a network interface? -/
  | wantApi (project : String) (screens : List String) (login : Bool)
  /-- Which is its base address? -/
  | baseUrl (project : String) (screens : List String) (login : Bool)
  /-- Everything is known. -/
  | done (project : String) (screens : List String) (login : Bool) (baseUrl : Option String)
deriving DecidableEq

namespace ProjectState

/-- The question of the state. -/
def question : ProjectState → Option Question
  | projectName => some ⟨"What is the name of your project?", .text none⟩
  | wantScreens _ => some ⟨"Do you want to create screens?", .yesNo true⟩
  | screenCount _ => some ⟨"How many screens do you want to create?", .text none⟩
  | screenName _ _ screens =>
    some ⟨"Name of screen " ++ toString (screens.length + 1) ++ "?", .text none⟩
  | wantLogin .. => some ⟨"Do you want a login screen?", .yesNo false⟩
  | wantApi .. => some ⟨"Do you want to create an API folder?", .yesNo true⟩
  | baseUrl .. => some ⟨"What is the base URL of your API?", .text (some Address.proposed)⟩
  | done .. => none

/-- The state when the login is settled. -/
def afterLogin (features : Features) (project : String) (screens : List String) (login : Bool) :
    ProjectState :=
  if features.askApi then wantApi project screens login else done project screens login none

/-- The state when the screens are settled. -/
def afterScreens (features : Features) (project : String) (screens : List String) : ProjectState :=
  if features.askLogin then wantLogin project screens
  else afterLogin features project screens false

/-- The state after an answer. -/
def respond (features : Features) (s : ProjectState) (raw : String) :
    Except Objection ProjectState :=
  match s with
  | projectName => do return wantScreens (← Answer.projectName raw)
  | wantScreens project => do
    if ← Answer.yesNo raw true then return screenCount project
    else return afterScreens features project []
  | screenCount project => do
    match ← Answer.count raw with
    | 0 => return afterScreens features project []
    | n + 1 => return screenName project (n + 1) []
  | screenName project count screens => do
    let name ← Answer.identifier raw
    if name ∈ screens then .error (.listedScreen name)
    else
      let screens := screens ++ [name]
      if screens.length < count then return screenName project count screens
      else return afterScreens features project screens
  | wantLogin project screens => do
    let login ← Answer.yesNo raw false
    if login && loginScreenName ∈ screens then .error (.listedScreen loginScreenName)
    else return afterLogin features project screens login
  | wantApi project screens login => do
    if ← Answer.yesNo raw true then return baseUrl project screens login
    else return done project screens login none
  | baseUrl project screens login => do
    return done project screens login (some (← Answer.baseUrl raw Address.proposed))
  | done .. => return s

/-- The plan, when everything is known. -/
def plan? (layout : Layout) : ProjectState → Option Plan
  | done project screens login address => some (.project project screens login address layout)
  | _ => none

end ProjectState

/-- The dialogue about a new project. -/
def projectDialogue (features : Features) (layout : Layout) : Dialogue ProjectState Plan where
  topic := "project"
  start := .projectName
  question := ProjectState.question
  respond := ProjectState.respond features
  result := ProjectState.plan? layout

end AppScaffold
