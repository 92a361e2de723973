/-!
# Lines of generated scripts

Skeletons are lists of lines. The pieces of script that occur in several skeletons have their
spelling here once.
-/

namespace AppScaffold.Skeleton

/-- Every line ended by a line feed. -/
def text : List String → String
  | [] => ""
  | line :: lines => line ++ "\n" ++ text lines

/-- Names in braces, as an import or a parameter takes them. -/
def braced (names : String) : String := "\x7b " ++ names ++ " \x7d"

/-- An import of the default export of a module. -/
def importDefault (name moduleName : String) : String :=
  "import " ++ name ++ " from '" ++ moduleName ++ "';"

/-- An import of named exports of a module. -/
def importNamed (names moduleName : String) : String := importDefault (braced names) moduleName

/-- An attribute of an element with its value. -/
def prop (name value : String) : String := name ++ "=\x7b" ++ value ++ "\x7d"

/-- The lines behind the same blanks. -/
def indented (blanks : String) (lines : List String) : List String := lines.map (blanks ++ ·)

/-- The import of the style sheet that lies beside a component. -/
def importStyles (name : String) : String := importNamed "styles" ("./" ++ name ++ ".style")

/-- The statement that makes a name the default export. -/
def exportDefault (name : String) : String := "export default " ++ name ++ ";"

/-- The lines of a text are written in order. -/
theorem text_append (a b : List String) : text (a ++ b) = text a ++ text b := by
  induction a with
  | nil => simp [text]
  | cons line lines ih => simp [text, ih, String.append_assoc]

end AppScaffold.Skeleton
