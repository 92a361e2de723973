import AppScaffold.Config.Tree
import AppScaffold.Config.Word
import AppScaffold.Text.AsciiCase
import AppScaffold.Text.Split

/-!
# Settings in the environment

A variable whose name begins with `EXPO_SCAFFOLD_` sets what the rest of its name says, two
underscores or a point standing between the names of nested settings. Upper and lower case are not
told apart in ASCII letters. Of several variables for one setting the last one counts.
-/

namespace AppScaffold.Environment

/-- The variables of an environment, in the order in which they are looked at. -/
abbrev Variables := List (String × String)

/-- What the names of variables with settings begin with. -/
def marker : String := "EXPO_SCAFFOLD_"

/-- The rest of a name behind the marker. -/
def afterMarker (name : String) : Option (List Char) :=
  let cs := Text.trimChars name.toList
  if Text.sameUpToCase (.ofList (cs.take marker.length)) marker then some (cs.drop marker.length)
  else none

/-- The characters with a point for each two underscores. -/
def pointed : List Char → List Char
  | '_' :: '_' :: cs => '.' :: pointed cs
  | c :: cs => c :: pointed cs
  | [] => []

/-- The names of nested settings, from the outermost to the innermost, that a variable sets. -/
def keys (name : String) : Option (List String) :=
  (afterMarker name).bind fun cs =>
    let ks := Text.split '.' (Text.asciiLower (.ofList (Text.trimChars (pointed cs))))
    if ks.contains "" then none else some ks

/-- A setting below nested names. -/
def nested (t : SettingTree) : List String → SettingTree
  | [] => t
  | k :: ks => .branch .environment [(k, nested t ks)]

/-- What one variable sets. -/
def variableTree (name value : String) : Option SettingTree :=
  (keys name).map (nested (.ofValue .environment (.ofText value)))

/-- What all variables set. -/
def tree (env : Variables) : SettingTree :=
  (env.filterMap fun (name, value) => variableTree name value).foldl SettingTree.merge
    (.branch .environment [])

end AppScaffold.Environment
