import AppScaffold.Config.Value
import AppScaffold.Entries

/-!
# Tables in the making

Statements add to tables step by step. A table may be opened by a header only once, and a key may
be given a value only once; tables that came about on the way to others may still be opened, those
of keys with points may only get more such keys.
-/

namespace AppScaffold.Toml

/-- How a table came about. -/
inductive Origin where
  /-- A header opened it. -/
  | header
  /-- It lies on the way of a header. -/
  | way
  /-- It lies on the way of a key with points. -/
  | points
deriving DecidableEq

/-- What a name stands for while a file is being read. -/
inductive Item where
  /-- A value. -/
  | value (v : ConfigValue)
  /-- A table. -/
  | table (origin : Origin) (entries : List (String × Item))
  /-- A list of tables, of which the last one may still grow. -/
  | tables (earlier : List ConfigValue) (last : List (String × Item))

namespace Item

mutual

/-- The value of an item. -/
def toValue : Item → ConfigValue
  | .value v => v
  | .table _ entries => .table (values entries)
  | .tables earlier last => .list (earlier ++ [.table (values last)])

/-- The values of named items. -/
def values : Entries Item → Entries ConfigValue
  | [] => []
  | (name, item) :: entries => (name, toValue item) :: values entries

end

/-- Give a value to a key with points; the names on its way are those of tables that only such keys
have made. -/
def insert : List String → String → ConfigValue → Entries Item → Option (Entries Item)
  | [], last, v, entries =>
    match entries.lookup last with
    | none => some (Entries.put last (.value v) entries)
    | some _ => none
  | name :: path, last, v, entries =>
    match entries.lookup name with
    | none =>
      (insert path last v []).map fun inner => Entries.put name (.table .points inner) entries
    | some (.value _) => none
    | some (.table .header _) => none
    | some (.table .way inner) =>
      if path.isEmpty then none
      else (insert path last v inner).map fun inner => Entries.put name (.table .way inner) entries
    | some (.table .points inner) =>
      (insert path last v inner).map fun inner => Entries.put name (.table .points inner) entries
    | some (.tables earlier inner) =>
      if path.isEmpty then none
      else
        (insert path last v inner).map fun inner => Entries.put name (.tables earlier inner) entries

/-- Change the entries of the table to which a path leads. -/
def descend (change : Entries Item → Option (Entries Item)) :
    List String → Entries Item → Option (Entries Item)
  | [], entries => change entries
  | name :: path, entries =>
    match entries.lookup name with
    | none => (descend change path []).map fun inner => Entries.put name (.table .way inner) entries
    | some (.value _) => none
    | some (.table origin inner) =>
      (descend change path inner).map fun inner => Entries.put name (.table origin inner) entries
    | some (.tables earlier inner) =>
      (descend change path inner).map fun inner => Entries.put name (.tables earlier inner) entries

/-- Open a table by its header. -/
def openTable (name : String) (entries : Entries Item) : Option (Entries Item) :=
  match entries.lookup name with
  | none => some (Entries.put name (.table .header []) entries)
  | some (.table .way inner) => some (Entries.put name (.table .header inner) entries)
  | some _ => none

/-- Open one more table of a list of tables. -/
def openElement (name : String) (entries : Entries Item) : Option (Entries Item) :=
  match entries.lookup name with
  | none => some (Entries.put name (.tables [] []) entries)
  | some (.tables earlier last) =>
    some (Entries.put name (.tables (earlier ++ [.table (values last)]) []) entries)
  | some _ => none

end Item

end AppScaffold.Toml
