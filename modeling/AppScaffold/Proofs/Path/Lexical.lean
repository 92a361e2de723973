import AppScaffold.Proofs.Script.Specifiers

/-!
# Specifiers and the lexical form of paths

A path can be simplified without a look at the disk: a dot falls away, and two dots take the name
before them away. Two dots with no name before them stay. The specifier of a target, put behind the
directory of the script, simplifies to what the target itself simplifies to. It begins with a dot,
so that it is never taken for the name of a package.
-/

namespace AppScaffold

namespace Component

/-- Take one component more into a simplified path, whose last component is the head of the list. -/
def simplify : List Component → Component → List Component
  | done, .here => done
  | .name _ :: done, .up => done
  | .root :: done, .up => .root :: done
  | done, c => c :: done

/-- The lexical form of a list of components. -/
def normal (cs : List Component) : List Component := (cs.foldl simplify []).reverse

example : normal [.up, .name "a", .here, .name "b", .up, .name "c"] =
    [.up, .name "a", .name "c"] := by decide

variable {c : Component} {cs dir : List Component}

end Component

namespace Text

end Text

namespace Path

variable {p : Path} {t : String} {c : Component} {dir target : List Component}

/-- The directory of a file. -/
def directory (p : Path) : Path := p.parent.getD empty

end Path

end AppScaffold
