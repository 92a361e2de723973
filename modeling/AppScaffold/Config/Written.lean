import AppScaffold.Settings
import AppScaffold.Toml.Quoted

/-!
# Written settings

Settings are written as a configuration file that gives them again: a section for each group, and
in it each setting on a line of its own. A list of more than one text has a line for each.
-/

namespace AppScaffold

/-- A line with a setting. -/
def settingLine (name value : String) : String := name ++ " = " ++ value ++ "\n"

/-- The written form of a truth value. -/
def writtenFlag (b : Bool) : String := if b then "true" else "false"

/-- The written form of a list of texts. -/
def writtenList : List String → String
  | [] => "[]"
  | [item] => "[" ++ Toml.written item ++ "]"
  | items => "[\n" ++ .join (items.map fun item => "    " ++ Toml.written item ++ ",\n") ++ "]"

/-- The lines of the layout. -/
def Layout.lines (l : Layout) : String :=
  .join ([("screens_dir", l.screensDir), ("components_dir", l.componentsDir),
      ("redux_dir", l.reduxDir), ("api_dir", l.apiDir), ("navigation_dir", l.navigationDir),
      ("screen_registry", l.screenRegistry), ("login_registry", l.loginRegistry)].map
    fun (name, path) => settingLine name (Toml.written path.text))

/-- The lines of the extensions. -/
def Extensions.lines (e : Extensions) : String :=
  settingLine "component" (Toml.written e.component) ++
    settingLine "script" (Toml.written e.script)

/-- The lines of the tools. -/
def Tools.lines (t : Tools) : String :=
  settingLine "initializer" (Toml.written t.initializer) ++
    settingLine "initializer_args" (writtenList t.initializerArgs) ++
    settingLine "initializer_trailing_args" (writtenList t.initializerTrailingArgs) ++
    settingLine "installer" (Toml.written t.installer) ++
    settingLine "installer_args" (writtenList t.installerArgs) ++
    settingLine "packages" (writtenList t.packages)

/-- The lines of the features. -/
def Features.lines (f : Features) : String :=
  settingLine "ask_login" (writtenFlag f.askLogin) ++
    settingLine "ask_api" (writtenFlag f.askApi) ++
    settingLine "initialize_project" (writtenFlag f.initializeProject) ++
    settingLine "install_packages" (writtenFlag f.installPackages)

/-- The settings as a configuration file. -/
def Settings.text (s : Settings) : String :=
  "[layout]\n" ++ s.layout.lines ++ "\n[extensions]\n" ++ s.extensions.lines ++
    "\n[project]\n" ++ s.tools.lines ++ "\n[features]\n" ++ s.features.lines

end AppScaffold
