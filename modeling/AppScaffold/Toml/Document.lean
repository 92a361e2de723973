import AppScaffold.Toml.Value

/-!
# Configuration files

A file is a list of statements: headers that open tables, and keys with their values, which belong
to the table that was opened last.
-/

namespace AppScaffold.Toml

/-- A statement of a file. -/
inductive Statement where
  /-- Open a table. -/
  | openTable (path : List String) (last : String)
  /-- Open one more table of a list of tables. -/
  | openElement (path : List String) (last : String)
  /-- Give a value to a key. -/
  | assign (path : List String) (last : String) (v : ConfigValue)

/-- What has been read of a file. -/
structure Document where
  /-- The entries of the file. -/
  entries : Entries Item := []
  /-- The way to the table that is open. -/
  current : List String := []

/-- The document with one more statement, if it agrees with those before. -/
def Document.add (d : Document) : Statement → Option Document
  | .openTable path last =>
    (Item.descend (Item.openTable last) path d.entries).map fun es => ⟨es, path ++ [last]⟩
  | .openElement path last =>
    (Item.descend (Item.openElement last) path d.entries).map fun es => ⟨es, path ++ [last]⟩
  | .assign path last v =>
    (Item.descend (Item.insert path last v) d.current d.entries).map fun es =>
      { d with entries := es }

open Text.Scanner

/-- Take a statement; lists in it have no more than `fuel` items. -/
def statement (fuel : Nat) : Text.Scanner Statement := do
  if ← take? ['[', '['] then
    let (path, last) ← key
    take [']', ']']
    trailing
    return .openElement path last
  else if ← take? ['['] then
    let (path, last) ← key
    take [']']
    trailing
    return .openTable path last
  else
    let (path, last) ← key
    take ['=']
    pass isSpace
    let v ← value fuel (depthLimit - 1)
    trailing
    return .assign path last v

/-- Take all statements of a file; no more than `fuel` of them. -/
def statements : Nat → Document → Text.Scanner Document
  | 0, _ => malformed
  | fuel + 1, d => fun cs => do
    let (_, cs) ← gaps (fuel + 1) cs
    if cs.isEmpty then return (d, cs)
    else
      let (s, cs) ← statement (fuel + 1) cs
      let d ← d.add s
      statements fuel d cs

/-- A text without a mark of its byte order at its beginning. -/
def withoutMark : List Char → List Char
  | '\ufeff' :: cs => cs
  | cs => cs

/-- The entries of a file, unless it is malformed. -/
def ofText (text : String) : Option (Entries ConfigValue) :=
  let cs := unifyLines (withoutMark text.toList)
  (statements (cs.length + 1) {} cs).map fun (d, _) => Item.values d.entries

end AppScaffold.Toml
