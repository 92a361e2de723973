import AppScaffold.Number.Written
import AppScaffold.Text.Quoted

/-!
# Values of a configuration

The values that configuration files and environment variables can hold.
-/

namespace AppScaffold

/-- A value of a configuration. -/
inductive ConfigValue where
  /-- A truth value. -/
  | bool (b : Bool)
  /-- A whole number from a file, or a negative one. -/
  | signed (n : Int)
  /-- A whole number that is not negative. -/
  | unsigned (n : Nat)
  /-- A floating-point number. -/
  | float (x : Double)
  /-- One character. -/
  | char (c : Char)
  /-- A text. -/
  | text (s : String)
  /-- Values in order. -/
  | list (items : List ConfigValue)
  /-- Values with names. -/
  | table (entries : List (String × ConfigValue))

/-- What kind of value it is, in words; one character counts as a text. -/
def ConfigValue.describe : ConfigValue → String
  | bool b => "bool " ++ toString b
  | signed n => "signed int `" ++ toString n ++ "`"
  | unsigned n => "unsigned int `" ++ toString n ++ "`"
  | float x => "float `" ++ x.plain ++ "`"
  | char c => "string " ++ Text.quoted (.singleton c)
  | text s => "string " ++ Text.quoted s
  | list _ => "sequence"
  | table _ => "map"

end AppScaffold
