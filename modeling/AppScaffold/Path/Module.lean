import AppScaffold.Path

/-!
# Module specifiers

One script names another by the way from its own directory: up to the nearest directory that both
share, then down. A leading dot marks the way as one inside the project.
-/

namespace AppScaffold.Path

/-- The number of components with which both lists begin. -/
def commonLength : List Component → List Component → Nat
  | a :: as, b :: bs => if a = b then commonLength as bs + 1 else 0
  | _, _ => 0

/-- The components without leading dots. -/
def steps (p : Path) : List Component := p.components.filter (· ≠ .here)

/-- The segments of the way from a directory to a target, both from one root. -/
def wayBetween (dir target : List Component) : List String :=
  let common := commonLength dir target
  (if dir.length = common then ["."] else List.replicate (dir.length - common) "..") ++
    (target.drop common).map Component.text

/-- The specifier of `target` in the file `file`, both from the root of the project. -/
def moduleSpecifier (file target : Path) : String :=
  Text.join "/" (wayBetween ((file.parent.map steps).getD []) target.steps)

end AppScaffold.Path
