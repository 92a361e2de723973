import AppScaffold.Path

/-!
# Settings

Where the artifacts of a project live, which extensions their files have, which tools create a
project and install its packages, and which questions the project dialogue asks.
-/

namespace AppScaffold

/-- The places of artifacts and registries, from the root of the project. -/
structure Layout where
  /-- One directory for each screen lies here. -/
  screensDir : Path := ⟨"src", ["Screens"]⟩
  /-- One directory for each component lies here. -/
  componentsDir : Path := ⟨"src", ["components"]⟩
  /-- The slices, the root reducer and the store lie here. -/
  reduxDir : Path := ⟨"src", ["Redux"]⟩
  /-- The base address and the shared network functions lie here. -/
  apiDir : Path := ⟨"src", ["Api"]⟩
  /-- The navigation containers lie here. -/
  navigationDir : Path := ⟨"src", ["Navigation"]⟩
  /-- The list of the screens of the main stack. -/
  screenRegistry : Path := ⟨"src", ["Navigation", "screens", "StackScreens.jsx"]⟩
  /-- The list of the screens before sign-in. -/
  loginRegistry : Path := ⟨"src", ["Navigation", "screens", "LoginScreens.jsx"]⟩
deriving DecidableEq

/-- The extensions of generated files. -/
structure Extensions where
  /-- Files with markup. -/
  component : String := "jsx"
  /-- Plain scripts. -/
  script : String := "js"
deriving DecidableEq

/-- The tools that run before and after the files of a project are made. -/
structure Tools where
  /-- The program that creates the project. -/
  initializer : String := "npx"
  /-- Its arguments before the name of the project. -/
  initializerArgs : List String := ["create-expo-app@latest"]
  /-- Its arguments after the name of the project. -/
  initializerTrailingArgs : List String := ["--template", "blank"]
  /-- The program that installs packages. -/
  installer : String := "npm"
  /-- Its arguments before the packages. -/
  installerArgs : List String := ["install"]
  /-- The packages of a new project. -/
  packages : List String :=
    ["@react-navigation/native", "@react-navigation/stack", "@react-navigation/native-stack",
      "axios", "react-native-safe-area-context", "react-native-screens",
      "react-native-gesture-handler", "react-native-toast-message", "@tanstack/react-query",
      "react-hook-form"]
deriving DecidableEq

/-- The parts of a project run that can be switched off. -/
structure Features where
  /-- Ask for a login screen. -/
  askLogin : Bool := true
  /-- Ask for a network interface. -/
  askApi : Bool := true
  /-- Create the project before the files. -/
  initializeProject : Bool := true
  /-- Install the packages after the files. -/
  installPackages : Bool := true
deriving DecidableEq

/-- All settings. -/
structure Settings where
  /-- Where things are. -/
  layout : Layout := {}
  /-- What files are called. -/
  extensions : Extensions := {}
  /-- What is run. -/
  tools : Tools := {}
  /-- What is asked. -/
  features : Features := {}
deriving DecidableEq

/-- The name of a component file. -/
def Extensions.componentFile (e : Extensions) (stem : String) : String := stem ++ "." ++ e.component

/-- The name of a script file. -/
def Extensions.scriptFile (e : Extensions) (stem : String) : String := stem ++ "." ++ e.script

end AppScaffold
