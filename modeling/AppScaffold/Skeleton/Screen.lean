import AppScaffold.Skeleton.Line

/-!
# Skeletons of screens

A screen has a component that shows its title, a style sheet, an index that passes the component
on, and an entry in the list of its stack.
-/

namespace AppScaffold.Skeleton

/-- The component of a screen. -/
def screen (name title : String) : List String :=
  [importDefault "React" "react",
    importNamed "View, Text, TouchableOpacity" "react-native",
    importNamed "useNavigation" "@react-navigation/native",
    importStyles name,
    "",
    "const " ++ name ++ " = () => \x7b",
    "    const navigation = useNavigation();",
    "",
    "    return (",
    "        <View " ++ prop "style" "styles.container" ++ ">",
    "            <Text " ++ prop "style" "styles.text" ++ ">" ++ title ++ " Screen</Text>",
    "            <TouchableOpacity " ++ prop "onPress" "() => navigation.goBack()" ++ ">",
    "                <Text>Go back</Text>",
    "            </TouchableOpacity>",
    "        </View>",
    "    );",
    "\x7d;",
    "",
    exportDefault name]

/-- A style sheet with the given lines between its braces. -/
def styleSheet (rules : List String) : List String :=
  [importNamed "StyleSheet" "react-native", "", "export const styles = StyleSheet.create(\x7b"] ++
    rules ++ ["\x7d);"]

/-- The style sheet of a screen. -/
def screenStyles : List String :=
  styleSheet
    ["    container: \x7b",
      "        flex: 1,",
      "        justifyContent: 'center',",
      "        alignItems: 'center',",
      "        backgroundColor: '#F5FCFF',",
      "    \x7d,",
      "    text: \x7b",
      "        fontSize: 20,",
      "        textAlign: 'center',",
      "        margin: 10,",
      "    \x7d,"]

/-- The index of a directory, which passes on the component in it. -/
def index (name : String) : List String :=
  ["export " ++ braced "default" ++ " from './" ++ name ++ "';"]

/-- The entry of a screen in the list of its stack. -/
def screenEntry (name : String) : List String :=
  ["    \x7b",
    "        name: \"" ++ name ++ "\",",
    "        component: " ++ name ++ ",",
    "        options: " ++ braced "headerShown: false" ++ ",",
    "    \x7d,"]

end AppScaffold.Skeleton
