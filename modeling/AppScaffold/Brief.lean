import AppScaffold.Answer
import AppScaffold.Problem
import AppScaffold.Request

/-!
# Briefs

A brief says in one document what the dialogue about a new project asks for question by question.
Its values are checked by the same rules, in a fixed order; a problem names the field.
-/

namespace AppScaffold

/-- What is to be known about a new project. -/
structure Brief where
  /-- The name of the project. -/
  projectName : String
  /-- The number of screens, if it is announced. -/
  screenCount : Option Nat := none
  /-- The names of the screens. -/
  screenNames : List String := []
  /-- The base address of the network interface. -/
  apiRoute : Option String := none
  /-- There is to be a login screen. -/
  login : Bool := false
deriving DecidableEq

namespace Brief

/-- The problem with the value of a field. -/
def refuse (field value : String) (objection : Objection) : Problem :=
  .invalidAnswer field value objection

/-- A checked value, or the problem with the field. -/
def check {α : Type} (field value : String) : Except Objection α → Except Problem α
  | .ok a => .ok a
  | .error objection => .error (refuse field value objection)

/-- The names of the screens, each checked and none of them twice. -/
def checkScreens (found : List String) : List String → Except Problem (List String)
  | [] => .ok found
  | raw :: raws => do
    let name ← check "screenNames" raw (Answer.identifier raw)
    if name ∈ found then .error (refuse "screenNames" raw .repeatedScreen)
    else checkScreens (found ++ [name]) raws

/-- The announced number of screens is that of the names. -/
def checkCount (b : Brief) : Except Problem Unit :=
  match b.screenCount with
  | none => .ok ()
  | some n =>
    if n = b.screenNames.length then .ok ()
    else .error (refuse "numOfScreen" (toString n) (.screenCount b.screenNames.length))

/-- The base address, if one is given and the features want one. -/
def checkRoute (b : Brief) (features : Features) : Except Problem (Option String) :=
  match b.apiRoute with
  | none => .ok none
  | some route =>
    if features.askApi && Text.trim route ≠ "" then
      (check "apiRoute" route (Answer.baseUrl route Address.proposed)).map some
    else .ok none

/-- The plan of the project. -/
def toPlan (b : Brief) (features : Features) (layout : Layout) : Except Problem Plan := do
  let project ← check "projectName" b.projectName (Answer.projectName b.projectName)
  b.checkCount
  let screens ← checkScreens [] b.screenNames
  let login := b.login && features.askLogin
  if login && loginScreenName ∈ screens then
    .error (refuse "login" "true" (.listedScreen loginScreenName))
  else
    let route ← b.checkRoute features
    return .project project screens login route layout

end Brief

end AppScaffold
