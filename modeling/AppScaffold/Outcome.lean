import AppScaffold.Aggregator
import AppScaffold.Materialize

/-!
# Outcomes

What has become of a request that was accepted: its files, and its entry in a registry.
-/

namespace AppScaffold

/-- What has become of a registry. -/
inductive PatchOutcome where
  /-- The entry was added; the registry was made from its seed or was there. -/
  | patched (aggregator : Aggregator) (path : Path) (seeded : Bool)
  /-- The entry was not added. -/
  | failed (aggregator : Aggregator) (problem : Problem)
deriving DecidableEq

/-- What has become of a request that was accepted. -/
structure Outcome where
  /-- The kind of the artifact. -/
  archetype : Archetype
  /-- What has become of its files. -/
  report : Report
  /-- Why files are missing. -/
  materializeProblem : Option Problem
  /-- What has become of its registry; nothing if it has none or files are missing. -/
  patch : Option PatchOutcome
deriving DecidableEq

/-- All files are there and the registry has its entry. -/
def Outcome.isSuccess (o : Outcome) : Bool :=
  o.materializeProblem = none &&
    match o.patch with
    | some (.failed ..) => false
    | _ => true

end AppScaffold
