import AppScaffold.Script.Anchor
import AppScaffold.Script.ImportLine
import AppScaffold.Settings

/-!
# Aggregators

An aggregator is a file that refers to many artifacts: the lists of screens, the root reducer, and
the modules of network functions. It has a fixed place, an anchor where entries are added, and a
seed from which it is made when it is missing.
-/

namespace AppScaffold

/-- A file that refers to many artifacts. -/
inductive Aggregator where
  /-- The screens of the main stack. -/
  | screenRegistry
  /-- The screens before sign-in. -/
  | loginRegistry
  /-- The reducers of all slices. -/
  | reducerRegistry
  /-- The shared network functions. -/
  | apiFunctions
  /-- The network functions of one screen. -/
  | screenApi (screen : String)
deriving DecidableEq

namespace Aggregator

/-- The name in messages. -/
def title : Aggregator → String
  | screenRegistry => "screen registry"
  | loginRegistry => "login registry"
  | reducerRegistry => "reducer registry"
  | apiFunctions => "API module"
  | screenApi screen => screen ++ " API module"

/-- The place from the root of the project, `reduxDir` being the directory of the state that is in
use. -/
def path (a : Aggregator) (s : Settings) (reduxDir : Path) : Path :=
  match a with
  | screenRegistry => s.layout.screenRegistry
  | loginRegistry => s.layout.loginRegistry
  | reducerRegistry => reduxDir.join (.ofText (s.extensions.scriptFile "root-reducer"))
  | apiFunctions => s.layout.apiDir.join (.ofText (s.extensions.scriptFile "api.functions"))
  | screenApi screen =>
    (s.layout.screensDir.join (.ofText screen)).join (.ofText (s.extensions.scriptFile "api"))

/-- Where entries are added. -/
def anchor : Aggregator → Script.Anchor
  | screenRegistry => .arrayLiteral "stackScreens"
  | loginRegistry => .arrayLiteral "loginScreens"
  | reducerRegistry => .mapCall "rootReducer" "combineReducers"
  | apiFunctions | screenApi _ => .fileEnd

/-- The content of a new aggregator; `file` is its own place. -/
def seed (a : Aggregator) (layout : Layout) (file : Path) : List String :=
  match a with
  | screenRegistry => ["export const stackScreens = [", "];"]
  | loginRegistry => ["export const loginScreens = [", "];"]
  | reducerRegistry =>
    [Skeleton.importNamed "combineReducers" "@reduxjs/toolkit",
      "",
      "export const rootReducer = combineReducers(\x7b",
      "\x7d);"]
  | apiFunctions | screenApi _ =>
    [Skeleton.importDefault "axios" "axios",
      Skeleton.importNamed "BASE_URL"
        (Path.moduleSpecifier file (layout.apiDir.join ⟨"api.config", []⟩))]

end Aggregator

end AppScaffold
