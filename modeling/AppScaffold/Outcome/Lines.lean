import AppScaffold.Outcome

/-!
# Outcomes in words

What has become of a request, told in lines of text. Paths inside the project are shown from its
root.
-/

namespace AppScaffold

/-- The mark before something that was made. -/
def createdMark : String := "✓"

/-- The mark before something that was skipped. -/
def skippedMark : String := "•"

/-- The mark before something that failed. -/
def failedMark : String := "✗"

/-- A path as it is shown, from the root of the project if it is inside. -/
def shownPath (root path : Path) : String := ((Path.below root path).getD path).text

/-- The line for a registry. -/
def PatchOutcome.line (p : PatchOutcome) (root : Path) : String :=
  match p with
  | .patched a path seeded =>
    "  " ++ createdMark ++ " " ++ shownPath root path ++ " (" ++ a.title ++
      (if seeded then " created)" else " updated)")
  | .failed a problem => "  " ++ failedMark ++ " " ++ a.title ++ " not updated: " ++ problem.message

/-- The lines for a request that was accepted. -/
def Outcome.lines (o : Outcome) (root : Path) : List String :=
  o.report.created.map (fun path => "  " ++ createdMark ++ " " ++ shownPath root path) ++
    o.report.skipped.map (fun path =>
      "  " ++ skippedMark ++ " " ++ shownPath root path ++ " (already exists, skipped)") ++
    (o.materializeProblem.map fun e => "  " ++ failedMark ++ " " ++ e.message).toList ++
    (o.patch.map fun p => p.line root).toList

end AppScaffold
