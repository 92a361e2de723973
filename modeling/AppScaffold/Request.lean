import AppScaffold.Archetype
import AppScaffold.Parameters
import AppScaffold.Path.Module
import AppScaffold.Settings

/-!
# Requests and plans

A request asks for one artifact. A plan is all that a new project needs: the navigation first, then
the screens in order, the login screen, and the base address.
-/

namespace AppScaffold

/-- A wish for one artifact. -/
structure Request where
  /-- The kind of the artifact. -/
  archetype : Archetype
  /-- What is to be known about it. -/
  params : Parameters
deriving DecidableEq

namespace Request

/-- A screen of the main stack. -/
def screen (name : String) : Request := ⟨.screen, .ofList [("name", .text name)]⟩

/-- A screen before sign-in. -/
def loginScreen (name : String) : Request := ⟨.loginScreen, .ofList [("name", .text name)]⟩

/-- The specifier of a registry in the navigators. -/
def registryModule (layout : Layout) (registry : Path) : String :=
  Path.moduleSpecifier (layout.navigationDir.join ⟨"AppNavigation.jsx", []⟩)
    registry.withoutExtension

/-- The containers that show the registered screens. -/
def navigation (login : Bool) (layout : Layout) : Request :=
  ⟨.navigation, .ofList
    [("login", .flag login),
      ("stack_module", .text (registryModule layout layout.screenRegistry)),
      ("login_module", .text (registryModule layout layout.loginRegistry))]⟩

/-- The base address. -/
def apiConfig (url : String) : Request := ⟨.apiConfig, .ofList [("base_url", .text url)]⟩

end Request

/-- What is generated for a new project. -/
structure Plan where
  /-- The directory of the project. -/
  projectName : String
  /-- The requests in order. -/
  requests : List Request
deriving DecidableEq

/-- The name of the screen that a login brings with it. -/
def loginScreenName : String := "Login"

/-- The plan of a new project. -/
def Plan.project (projectName : String) (screens : List String) (login : Bool)
    (baseUrl : Option String) (layout : Layout) : Plan :=
  ⟨projectName,
    [Request.navigation login layout] ++ screens.map Request.screen ++
      (if login then [Request.loginScreen loginScreenName] else []) ++
      (baseUrl.map Request.apiConfig).toList⟩

end AppScaffold
