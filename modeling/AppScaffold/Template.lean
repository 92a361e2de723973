import AppScaffold.Address
import AppScaffold.Aggregator
import AppScaffold.FileTree
import AppScaffold.Name
import AppScaffold.Parameters
import AppScaffold.Problem
import AppScaffold.Skeleton.Component
import AppScaffold.Skeleton.Navigation
import AppScaffold.Skeleton.Network
import AppScaffold.Skeleton.State

/-!
# Templates

A template makes the files of an artifact from its parameters, and the entry by which a registry
refers to it. The parameters are checked first, so that an artifact is made completely or not at
all. Nothing here touches the disk.
-/

namespace AppScaffold.Template

/-- The text of a parameter that has to be there. -/
def required (a : Archetype) (p : Parameters) (parameter : String) : Except Problem String :=
  match p.text parameter with
  | some s => .ok s
  | none => .error (.missingParameter a parameter)

/-- All parameters of a list are there; the first one that is not is named. -/
def checkRequired (a : Archetype) (p : Parameters) : List String → Except Problem Unit
  | [] => .ok ()
  | parameter :: parameters =>
    match required a p parameter with
    | .ok _ => checkRequired a p parameters
    | .error e => .error e

/-- The text of a parameter that has to be an identifier. -/
def identifier (a : Archetype) (p : Parameters) (parameter : String) : Except Problem String := do
  let value ← required a p parameter
  if Name.isIdentifier value then .ok value
  else .error (.invalidParameter a parameter value .noIdentifier)

/-- The name and the methods of network functions; for those of a screen, the screen is checked. -/
def networkTarget (a : Archetype) (p : Parameters) : Except Problem (String × MethodSelection) := do
  let name ← identifier a p "name"
  let raw ← required a p "method"
  match MethodSelection.ofText? raw with
  | none => .error (.invalidParameter a "method" raw (.unknownChoice MethodSelection.choices))
  | some selection =>
    if a = .screenApi then
      let _ ← identifier a p "screen"
      .ok (name, selection)
    else .ok (name, selection)

/-- A path of one directory and a file in it. -/
def within (dir file : String) : Path := (Path.ofText dir).join (.ofText file)

/-- The component, its style sheet and its index, in a directory of their own. -/
def componentTree (e : Extensions) (name kind : String) (component styles : List String) :
    FileTree :=
  .ofList
    [⟨within name (e.componentFile name), Skeleton.text component, name ++ " " ++ kind⟩,
      ⟨within name (e.scriptFile (name ++ ".style")), Skeleton.text styles, name ++ " styles"⟩,
      ⟨within name (e.scriptFile "index"), Skeleton.text (Skeleton.index name), name ++ " index"⟩]

/-- The files of a screen. -/
def screenTree (e : Extensions) (a : Archetype) (p : Parameters) : Except Problem FileTree := do
  let name ← identifier a p "name"
  .ok (componentTree e name "screen" (Skeleton.screen name (Name.title name)) Skeleton.screenStyles)

/-- The files of a component. Elements are checked also where there is no slot for them. -/
def variantTree (e : Extensions) (p : Parameters) : Except Problem FileTree := do
  let name ← identifier .component p "name"
  let raw ← required .component p "variant"
  match Variant.ofText? raw with
  | none =>
    .error
      (.invalidParameter .component "variant" raw (.unknownChoice (Variant.all.map Variant.name)))
  | some v =>
    match (p.list "elements").find? fun element => !Name.isIdentifier element with
    | some element => .error (.invalidParameter .component "elements" element .noElement)
    | none =>
      .ok (componentTree e name (v.name ++ " component")
        (Skeleton.component v name (p.list "elements")) (Skeleton.componentStyles v.styling))

/-- The file of a slice. -/
def reducerTree (e : Extensions) (p : Parameters) : Except Problem FileTree := do
  let name ← identifier .reducer p "name"
  .ok (.ofList
    [⟨within name (e.scriptFile (name ++ "-reducer")),
      Skeleton.text (Skeleton.reducer (Name.camel name)), name ++ " slice"⟩])

/-- The file of the base address. -/
def addressTree (e : Extensions) (p : Parameters) : Except Problem FileTree := do
  let raw ← required .apiConfig p "base_url"
  if raw.toList.any Address.isQuoteOrBackslash then
    .error (.invalidParameter .apiConfig "base_url" raw .quoteInUrl)
  else
    .ok (.ofList
      [⟨.ofText (e.scriptFile "api.config"),
        Skeleton.text (Skeleton.baseAddress (Address.normal raw)), "API base address"⟩])

/-- The files of the navigation. -/
def navigationTree (e : Extensions) (p : Parameters) : FileTree :=
  let login := p.flag "login"
  let stackModule := (p.text "stack_module").getD "./screens/StackScreens"
  let loginModule := (p.text "login_module").getD "./screens/LoginScreens"
  .ofList
    ([⟨.ofText (e.componentFile "AppNavigation"),
        Skeleton.text (Skeleton.navigator "AppNavigation" "stackScreens" stackModule),
        "App stack navigator"⟩,
      ⟨.ofText (e.componentFile "MainNavigation"), Skeleton.text (Skeleton.mainNavigation login),
        "Navigation container"⟩] ++
    if login then
      [⟨.ofText (e.componentFile "LoginNavigation"),
        Skeleton.text (Skeleton.navigator "LoginNavigation" "loginScreens" loginModule),
        "Login stack navigator"⟩]
    else [])

/-- The files of an artifact, from the directory of its archetype. -/
def instantiate (e : Extensions) (a : Archetype) (p : Parameters) : Except Problem FileTree := do
  checkRequired a p a.required
  match a with
  | .screen | .loginScreen => screenTree e a p
  | .component => variantTree e p
  | .reducer => reducerTree e p
  | .store =>
    .ok (.ofList [⟨.ofText (e.scriptFile "store"), Skeleton.text Skeleton.store, "Redux store"⟩])
  | .apiConfig => addressTree e p
  | .apiFunction | .screenApi =>
    let _ ← networkTarget a p
    .ok {}
  | .navigation => .ok (navigationTree e p)

/-- What an artifact adds to a registry; the import of the entry is from the directory of the
archetype. -/
structure RegistryEntry where
  /-- The registry. -/
  aggregator : Aggregator
  /-- The entry. -/
  entry : Script.Entry
deriving DecidableEq

/-- The text of the functions for the selected methods. -/
def networkFunctions (name : String) (selection : MethodSelection) : String :=
  Skeleton.text
    ((if selection = .all then Skeleton.banner name else []) ++
      selection.methods.flatMap (Skeleton.networkFunction (Name.pascal name) (Name.route name)))

/-- The entry of a screen in the list of a stack. -/
def screenEntry (aggregator : Aggregator) (name : String) : RegistryEntry :=
  ⟨aggregator, some ⟨.default name, .ofText name⟩, Text.join "\n" (Skeleton.screenEntry name)⟩

/-- The entry of a slice in the root reducer. -/
def reducerEntry (name : String) : RegistryEntry :=
  let slice := Name.camel name
  ⟨.reducerRegistry, some ⟨.named (slice ++ "Reducer"), within name (name ++ "-reducer")⟩,
    Skeleton.reducerEntry slice⟩

/-- What an artifact adds to a registry, if it belongs in one. The parameters are checked as by
`instantiate`. -/
def registryEntry (a : Archetype) (p : Parameters) : Except Problem (Option RegistryEntry) := do
  checkRequired a p a.required
  match a with
  | .screen =>
    let name ← identifier a p "name"
    .ok (some (screenEntry .screenRegistry name))
  | .loginScreen =>
    let name ← identifier a p "name"
    .ok (some (screenEntry .loginRegistry name))
  | .reducer =>
    let name ← identifier a p "name"
    .ok (some (reducerEntry name))
  | .apiFunction =>
    let (name, selection) ← networkTarget a p
    .ok (some ⟨.apiFunctions, none, networkFunctions name selection⟩)
  | .screenApi =>
    let (name, selection) ← networkTarget a p
    let screen ← identifier a p "screen"
    .ok (some ⟨.screenApi screen, none, networkFunctions name selection⟩)
  | .component | .store | .apiConfig | .navigation => .ok none

end AppScaffold.Template
