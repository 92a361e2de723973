import AppScaffold.Config.Tree
import AppScaffold.Text.AsciiCase
import AppScaffold.Text.Split

/-!
# Settings of a wrong kind

A setting is taken as a truth value, a text, a path or a list of texts. A value of another kind is
a mismatch, which is told with the key of the setting and with what it was taken from.
-/

namespace AppScaffold

/-- A value that is not of the kind that its setting asks for. -/
structure Mismatch where
  /-- The names that lead to the setting, or to an item of it. -/
  key : List String := []
  /-- What was found. -/
  found : String
  /-- What was asked for. -/
  expected : String
  /-- What the value was taken from. -/
  source : Source
deriving DecidableEq

namespace Mismatch

/-- The mismatch as one of a setting inside another. -/
def inside (name : String) (m : Mismatch) : Mismatch := { m with key := name :: m.key }

/-- What is wrong with the value. -/
def message (m : Mismatch) : String :=
  "invalid type: found " ++ m.found ++ ", expected " ++ m.expected

end Mismatch

namespace SettingTree

/-- What the setting was taken from. -/
def source : SettingTree → Source
  | leaf s _ | branch s _ => s

/-- The kind of the setting, in words. -/
def describe : SettingTree → String
  | leaf _ v => v.describe
  | branch .. => (ConfigValue.table []).describe

/-- The setting is of a wrong kind. -/
def mismatch (t : SettingTree) (expected : String) : Mismatch :=
  { found := t.describe, expected, source := t.source }

/-- A setting inside another one; its mismatches are told with its name. -/
def within {α : Type} (name : String) : Except Mismatch α → Except Mismatch α :=
  Except.mapError (Mismatch.inside name)

/-- The setting as a truth value. -/
def asFlag : SettingTree → Except Mismatch Bool
  | leaf _ (.bool b) => .ok b
  | t => .error (t.mismatch "a boolean")

/-- The setting as a text, which messages call by the given words. -/
def asTextOf (words : String) : SettingTree → Except Mismatch String
  | leaf _ (.text s) => .ok s
  | leaf _ (.char c) => .ok (.singleton c)
  | t => .error (t.mismatch words)

/-- The setting as a text. -/
def asText : SettingTree → Except Mismatch String := asTextOf "a string"

/-- The setting as a path. -/
def asPath (t : SettingTree) : Except Mismatch Path := (t.asTextOf "path string").map .ofText

/-- The items of a setting with their numbers, each taken as a text. -/
def textsFrom (source : Source) (start : Nat) : List ConfigValue → Except Mismatch (List String)
  | [] => .ok []
  | v :: vs => do
    let s ← within (toString start) (ofValue source v).asText
    return s :: (← textsFrom source (start + 1) vs)

/-- The setting as a list of texts. -/
def asTexts : SettingTree → Except Mismatch (List String)
  | leaf source (.list items) => textsFrom source 0 items
  | t => .error (t.mismatch "a sequence")

end SettingTree

end AppScaffold
