import AppScaffold.Component
import AppScaffold.Skeleton.Screen

/-!
# Skeletons of components

All components have one frame; the variant decides which elements they wrap and whether there is a
slot. The slot passes on what it is given, unless the component is made with elements of its own.
-/

namespace AppScaffold.Skeleton

/-- The elements that a variant imports. -/
def importedElements : Variant → String
  | .touchableOpacity => "TouchableOpacity, Text"
  | .modal => "Modal, View"
  | v => v.name

/-- The properties that a variant takes. -/
def properties : Variant → String
  | .button | .touchableOpacity => "onPress, title"
  | .view | .text | .scrollView => "children"
  | .modal => "visible, children"

/-- The lines of the slot: for each element an opening and a closing tag around a comment, or the
children that are passed in. -/
def slot (elements : List String) : List String :=
  if elements.isEmpty then ["\x7bchildren\x7d"]
  else elements.flatMap fun e =>
    ["<" ++ e ++ ">", "    \x7b/* Add your " ++ e ++ " code here */\x7d", "</" ++ e ++ ">"]

/-- What a component shows. -/
def shown (v : Variant) (elements : List String) : List String :=
  let inside := indented v.slotIndent (slot elements)
  match v with
  | .button =>
    ["        <Button",
      "            " ++ prop "onPress" "onPress",
      "            " ++ prop "title" "title",
      "            " ++ prop "style" "styles.button",
      "        />"]
  | .touchableOpacity =>
    ["        <TouchableOpacity " ++ prop "onPress" "onPress" ++ " " ++
        prop "style" "styles.container" ++ ">",
      "            <Text " ++ prop "style" "styles.text" ++ ">\x7btitle\x7d</Text>",
      "        </TouchableOpacity>"]
  | .view => ["        <View " ++ prop "style" "styles.container" ++ ">"] ++ inside ++
      ["        </View>"]
  | .text => ["        <Text " ++ prop "style" "styles.text" ++ ">"] ++ inside ++
      ["        </Text>"]
  | .scrollView => ["        <ScrollView " ++ prop "style" "styles.container" ++ ">"] ++
      inside ++ ["        </ScrollView>"]
  | .modal =>
    ["        <Modal " ++ prop "visible" "visible" ++ " " ++
        prop "style" "styles.modal" ++ ">",
      "            <View " ++ prop "style" "styles.container" ++ ">"] ++ inside ++
      ["            </View>", "        </Modal>"]

/-- A component of a variant with elements in its slot. -/
def component (v : Variant) (name : String) (elements : List String) : List String :=
  [importDefault "React" "react",
    importNamed (importedElements v) "react-native",
    importStyles name,
    "",
    "const " ++ name ++ " = (" ++ braced (properties v) ++ ") => \x7b",
    "    return ("] ++ shown v elements ++
  ["    );",
    "\x7d;",
    "",
    exportDefault name]

/-- A rule that is left to be filled in. -/
def emptyRule (name : String) : List String :=
  ["    " ++ name ++ ": \x7b", "        // Add your styles here", "    \x7d,"]

/-- The names of the rules of a style sheet. -/
def ruleNames : Styling → List String
  | .button => ["button"]
  | .container => ["container"]
  | .containerText => ["container", "text"]
  | .text => ["text"]
  | .modal => ["modal", "container"]

/-- The style sheet of a component. -/
def componentStyles (s : Styling) : List String := styleSheet ((ruleNames s).flatMap emptyRule)

end AppScaffold.Skeleton
