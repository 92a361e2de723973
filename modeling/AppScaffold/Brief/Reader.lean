import AppScaffold.Brief
import AppScaffold.Json.Value

/-!
# Reading a brief

A brief is an object with named fields in any order, of which only the name of the project must be
there, or a list of the values in their fixed order. Unknown fields are passed over.
-/

namespace AppScaffold.Brief

open Json Json.Reader

/-- The fields that have been read so far. -/
structure Fields where
  /-- The name of the project. -/
  projectName : Option String := none
  /-- The number of screens. -/
  screenCount : Option (Option Nat) := none
  /-- The names of the screens. -/
  screenNames : Option (List String) := none
  /-- The base address. -/
  apiRoute : Option (Option String) := none
  /-- There is to be a login screen. -/
  login : Option Bool := none

/-- Read a field that has not been read before; a second one is reported at the end of the object,
if that follows. -/
def once {α : Type} (name : String) (old : Option α) (r : Reader α) : Reader (Option α) :=
  match old with
  | none => do colon; return some (← r)
  | some _ => do
    if (← next) = some '\x7d' then eat
    fail (.duplicateField name)

/-- Read the value of the field with a name. -/
def readField (f : Fields) (name : String) : Reader Fields := do
  match name with
  | "projectName" => return { f with projectName := ← once name f.projectName textValue }
  | "numOfScreen" => return { f with screenCount := ← once name f.screenCount (orNull countValue) }
  | "screenNames" =>
    return { f with screenNames := ← once name f.screenNames (listValue textValue) }
  | "apiRoute" => return { f with apiRoute := ← once name f.apiRoute (orNull textValue) }
  | "login" => return { f with login := ← once name f.login boolValue }
  | _ => do colon; passValue; return f

/-- Read fields up to the end of the object; no more than `fuel` of them. -/
def readFields : Nat → Bool → Fields → Reader Fields
  | 0, _, _ => fail .endInObject
  | fuel + 1, first, f => do
    if ← anotherKey first then do
      let name ← text
      readFields fuel false (← readField f name)
    else return f

/-- The brief with the given fields. -/
def ofFields (f : Fields) : Reader Brief :=
  match f.projectName with
  | some name =>
    pure ⟨name, f.screenCount.getD none, f.screenNames.getD [], f.apiRoute.getD none,
      f.login.getD false⟩
  | none => fail (.missingField "projectName")

/-- Read the next value of a list, if there is one. -/
def nextItem {α : Type} (default : α) (r : Reader α) : Reader α := do
  if ← anotherItem false then r else return default

/-- Read the values of a brief as a list, behind its bracket. -/
def readItems : Reader Brief := do
  if ← anotherItem true then do
    let name ← textValue
    let count ← nextItem none (orNull countValue)
    let screens ← nextItem [] (listValue textValue)
    let route ← nextItem none (orNull textValue)
    let login ← nextItem false boolValue
    closeList
    return ⟨name, count, screens, route, login⟩
  else do
    eat
    fail (.tooShort 0 "struct ProjectBrief with 5 elements")

/-- Read a brief. -/
def reader : Reader Brief := do
  match ← someNext with
  | '\x7b' => do
    eat
    let f ← readFields ((← get).rest.length + 1) true {}
    eat
    ofFields f
  | '[' => do eat; readItems
  | _ => mismatch "struct ProjectBrief"

/-- The brief that a document holds. -/
def ofText (document : String) : Except Problem Brief :=
  match reader.run document with
  | .ok b => .ok b
  | .error e => .error (refuse "project brief" "" (.unreadable (e.message document)))

end AppScaffold.Brief
