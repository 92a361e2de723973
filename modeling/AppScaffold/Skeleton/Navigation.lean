import AppScaffold.Skeleton.Line

/-!
# Skeletons of the navigation

A navigator for each list of screens, and the container that shows one of them.
-/

namespace AppScaffold.Skeleton

/-- A navigator over the screens of a list that another module exports. -/
def navigator (name screens moduleName : String) : List String :=
  [importDefault "React" "react",
    importNamed "createStackNavigator" "@react-navigation/stack",
    importNamed screens moduleName,
    "",
    "const Stack = createStackNavigator();",
    "",
    "function " ++ name ++ "() \x7b",
    "    return (",
    "        <Stack.Navigator>",
    "            \x7b" ++ screens ++ ".map((screen) => (",
    "                <Stack.Screen",
    "                    " ++ prop "key" "screen.name",
    "                    " ++ prop "name" "screen.name",
    "                    " ++ prop "component" "screen.component",
    "                    " ++ prop "options" "screen.options",
    "                />",
    "            ))\x7d",
    "        </Stack.Navigator>",
    "    );",
    "\x7d",
    "",
    exportDefault name]

/-- The container; with a login it chooses between the two navigators. -/
def mainNavigation (login : Bool) : List String :=
  [importDefault "React" "react",
    importNamed "NavigationContainer" "@react-navigation/native",
    "",
    importDefault "AppNavigation" "./AppNavigation"] ++
  (if login then [importDefault "LoginNavigation" "./LoginNavigation"] else []) ++
  ["",
    "export default function MainNavigation() \x7b"] ++
  (if login then ["    const isAuthenticated = false;", ""] else []) ++
  ["    return (",
    "        <NavigationContainer>",
    if login then "            \x7bisAuthenticated ? <AppNavigation /> : <LoginNavigation />\x7d"
    else "            <AppNavigation />",
    "        </NavigationContainer>",
    "    );",
    "\x7d"]

end AppScaffold.Skeleton
