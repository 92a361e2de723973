import AppScaffold.Config.Value
import AppScaffold.Entries
import AppScaffold.Path

/-!
# Layers of a configuration

A configuration is found in layers, of which a later one goes before an earlier one, setting by
setting. What each setting was taken from is kept for messages.
-/

namespace AppScaffold

/-- What a setting was taken from. -/
inductive Source where
  /-- A configuration file. -/
  | file (path : Path)
  /-- The variables of the environment. -/
  | environment
deriving DecidableEq

/-- Settings by name, with what they were taken from. -/
inductive SettingTree where
  /-- A value that is no table. -/
  | leaf (source : Source) (v : ConfigValue)
  /-- Settings with names. -/
  | branch (source : Source) (entries : List (String × SettingTree))

namespace SettingTree

mutual

/-- A value with what it was taken from. -/
def ofValue (source : Source) : ConfigValue → SettingTree
  | .table entries => branch source (ofEntries source entries)
  | v => leaf source v

/-- Named values with what they were taken from. -/
def ofEntries (source : Source) : Entries ConfigValue → Entries SettingTree
  | [] => []
  | (name, v) :: entries => (name, ofValue source v) :: ofEntries source entries

end

mutual

/-- Two layers in one; tables are merged and any other setting of the later layer replaces that of
the earlier one. -/
def merge : SettingTree → SettingTree → SettingTree
  | branch _ earlier, branch source later => branch source (mergeEntries earlier later)
  | _, later => later

/-- The entries of two layers in one. -/
def mergeEntries (earlier : Entries SettingTree) : Entries SettingTree → Entries SettingTree
  | [] => earlier
  | (name, t) :: later =>
    let merged := match earlier.lookup name with
      | some e => merge e t
      | none => t
    mergeEntries (earlier.put name merged) later

end

end SettingTree

end AppScaffold
