import AppScaffold.Path.Module
import AppScaffold.Skeleton.Line

/-!
# Import lines

A registry imports each artifact that it lists, with a specifier that leads from its own directory
to the artifact.
-/

namespace AppScaffold.Script

/-- How an import binds what it takes from a module. -/
inductive Binding where
  /-- The default export. -/
  | default (name : String)
  /-- One named export. -/
  | named (name : String)
deriving DecidableEq

/-- An import of one name. -/
structure ImportLine where
  /-- What is bound. -/
  binding : Binding
  /-- The module, without extension. -/
  module : Path
deriving DecidableEq

/-- The line in a file; both paths are from the root of the project. -/
def ImportLine.render (i : ImportLine) (file : Path) : String :=
  match i.binding with
  | .default name => Skeleton.importDefault name (Path.moduleSpecifier file i.module)
  | .named name => Skeleton.importNamed name (Path.moduleSpecifier file i.module)

/-- An entry for a registry. -/
structure Entry where
  /-- The import without which the entry means nothing. -/
  importLine : Option ImportLine
  /-- The text of the entry. -/
  fragment : String
deriving DecidableEq

/-- The entry with the module of its import below a directory. -/
def Entry.rootedAt (e : Entry) (dir : Path) : Entry :=
  { e with importLine := e.importLine.map fun i => { i with module := dir.join i.module } }

end AppScaffold.Script
