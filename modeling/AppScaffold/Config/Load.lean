import AppScaffold.Config.Environment
import AppScaffold.Config.Section
import AppScaffold.Disk.Operations
import AppScaffold.Path.Module
import AppScaffold.Toml.Document

/-!
# Loading settings

The settings in force are the defaults, changed by a configuration file, changed by the variables
of the environment. A configuration file in a directory is optional.
-/

namespace AppScaffold

/-- Why there are no settings. -/
inductive ConfigProblem where
  /-- The configuration file cannot be read as one. -/
  | malformed (file : Path)
  /-- A setting has a value of a wrong kind. -/
  | mismatch (m : Mismatch)
deriving DecidableEq

/-- The name of the configuration file in a directory. -/
def configFileName : Path := ⟨"expo-scaffold.toml", []⟩

/-- The path of a location. -/
def Location.path (loc : Location) : Path := ⟨"", if loc.isEmpty then [""] else loc⟩

/-- The location and those above it, the nearest first. -/
def Location.upward (loc : Location) : List Location :=
  (List.range (loc.length + 1)).map fun n => loc.take (loc.length - n)

namespace Volume

/-- The file that a path means: a relative path is looked for in the working directory and in those
above it. -/
def findFile (v : Volume) (p : Path) : Option Path :=
  if p.isAbsolute then if v.isFile p then some p else none
  else ((Location.upward v.cwd).map fun loc => (Location.path loc).join p).find? v.isFile

/-- The layer of a configuration file; a missing file gives none. -/
def fileLayer (v : Volume) (p : Path) : Except ConfigProblem (Option SettingTree) :=
  match v.findFile p with
  | none => .ok none
  | some file =>
    match (v.readText file).toOption.bind Toml.ofText with
    | none => .error (.malformed file)
    | some entries => .ok (some (.ofValue (.file file) (.table entries)))

end Volume

/-- The settings that layers give, the earliest first. -/
def Settings.ofLayers (layers : List SettingTree) : Except ConfigProblem Settings :=
  match Settings.ofTree (layers.foldl SettingTree.merge (.branch .environment [])) with
  | .ok s => .ok s
  | .error m => .error (.mismatch m)

/-- The settings in force with a certain configuration file. -/
def Settings.loadFrom (v : Volume) (env : Environment.Variables) (file : Path) :
    Except ConfigProblem Settings := do
  let layer ← v.fileLayer file
  Settings.ofLayers (layer.toList ++ [Environment.tree env])

/-- The settings in force in a directory. -/
def Settings.load (v : Volume) (env : Environment.Variables) (dir : Path) :
    Except ConfigProblem Settings :=
  let file := dir.join configFileName
  if v.exists? file then Settings.loadFrom v env file
  else Settings.ofLayers [Environment.tree env]

/-- A path as it is shown in messages: from the working directory, if that is shorter. -/
def Volume.shownFile (v : Volume) (p : Path) : Path :=
  let way := Path.wayBetween (Location.path v.cwd).steps p.steps
  let segments := if way.head? = some "." then way.tail else way
  match segments with
  | first :: rest => if segments.length < p.components.length then ⟨first, rest⟩ else p
  | [] => Path.empty

namespace ConfigProblem

/-- The key of the setting as a message shows it: as it stands in the file, or as the name of a
variable. -/
def shownKey (source : Source) (key : List String) : String :=
  match source with
  | .file _ => "default." ++ Text.join "." key
  | .environment => Text.asciiUpper (Text.join "." key)

/-- The place of the setting as a message shows it. -/
def shownSource (v : Volume) : Source → String
  | .file p => (v.shownFile p).text ++ " TOML file"
  | .environment => "`EXPO_SCAFFOLD_` environment variable(s)"

/-- The text of the problem. -/
def message (v : Volume) : ConfigProblem → String
  | malformed file => "malformed file in " ++ shownSource v (.file file)
  | mismatch m =>
    m.message ++ " for key " ++ Text.quoted (shownKey m.source m.key) ++ " in " ++
      shownSource v m.source

end ConfigProblem

end AppScaffold
