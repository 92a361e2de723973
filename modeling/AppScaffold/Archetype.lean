import AppScaffold.Text.AsciiCase
import AppScaffold.Text.Blank

/-!
# Archetypes

The kinds of artifacts that can be generated, each with its key and the parameters that it cannot
do without.
-/

namespace AppScaffold

/-- A kind of artifact. -/
inductive Archetype where
  /-- A screen of the main stack. -/
  | screen
  /-- A screen before sign-in. -/
  | loginScreen
  /-- A reusable part of screens. -/
  | component
  /-- A slice of the state with its reducer. -/
  | reducer
  /-- The store of the state. -/
  | store
  /-- The base address of the network interface. -/
  | apiConfig
  /-- Network functions of the shared module. -/
  | apiFunction
  /-- Network functions of one screen. -/
  | screenApi
  /-- The containers that show the registered screens. -/
  | navigation
deriving DecidableEq, Repr

namespace Archetype

/-- All archetypes. -/
def all : List Archetype :=
  [screen, loginScreen, component, reducer, store, apiConfig, apiFunction, screenApi, navigation]

/-- The key that stands for the archetype in requests and messages. -/
def key : Archetype → String
  | screen => "screen"
  | loginScreen => "login-screen"
  | component => "component"
  | reducer => "reducer"
  | store => "store"
  | apiConfig => "api-config"
  | apiFunction => "api-function"
  | screenApi => "screen-api"
  | navigation => "navigation"

/-- The parameters that must be given, in the order in which they are looked at. -/
def required : Archetype → List String
  | screen | loginScreen | reducer => ["name"]
  | component => ["name", "variant"]
  | apiConfig => ["base_url"]
  | apiFunction => ["name", "method"]
  | screenApi => ["name", "method", "screen"]
  | store | navigation => []

/-- The archetype with a key, blanks around it and the case of its letters being free. -/
def ofText? (s : String) : Option Archetype :=
  all.find? fun a => Text.sameUpToCase a.key (Text.trim s)

end Archetype

end AppScaffold
