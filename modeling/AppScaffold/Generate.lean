import AppScaffold.Outcome
import AppScaffold.Project
import AppScaffold.Request
import AppScaffold.Script.Patch
import AppScaffold.Template

/-!
# Generating an artifact

A request is checked first; a request that is refused changes nothing. Then the files of the
artifact are made, and if they could all be made, its entry is added to its registry. A registry
is read anew each time, so that entries made by hand are kept, and is made from its seed when it is
missing.
-/

namespace AppScaffold

/-- A registry with one more entry, not yet written. -/
structure PatchedFile where
  /-- Where it goes. -/
  path : Path
  /-- What is in it. -/
  content : String
  /-- It was made from its seed. -/
  seeded : Bool
deriving DecidableEq

/-- The place of an aggregator from the root of a project. -/
def Settings.aggregatorPath (s : Settings) (a : Aggregator) (v : Volume) (root : Path) : Path :=
  a.path s (s.layout.usedReduxDir v root)

/-- The text of an aggregator, or its seed if it is missing. -/
def Settings.aggregatorText (s : Settings) (a : Aggregator) (v : Volume) (root : Path) :
    Except Problem (String × Bool) :=
  let file := s.aggregatorPath a v root
  if v.exists? (root.join file) then
    match v.readText (root.join file) with
    | .ok text => .ok (text, false)
    | .error e => .error (.readFailed (root.join file) e)
  else .ok (Skeleton.text (a.seed s.layout file), true)

/-- The aggregator with one more entry. -/
def Settings.patchAggregator (s : Settings) (a : Aggregator) (v : Volume) (root : Path)
    (entry : Script.Entry) : Except Problem PatchedFile := do
  let file := s.aggregatorPath a v root
  let (text, seeded) ← s.aggregatorText a v root
  let line := entry.importLine.map fun i => (i.render file).toList
  match Script.applyPatch text.toList a.anchor entry.fragment.toList line with
  | some cs => .ok ⟨root.join file, String.ofList cs, seeded⟩
  | none => .error (.anchorNotFound (root.join file) a.anchor.marker)

/-- Write a patched file and make the directories above it. -/
def PatchedFile.write (p : PatchedFile) (v : Volume) : Except Problem Unit × Volume :=
  match v.mkdirParent p.path with
  | (.error (dir, e), w) => (.error (.directoryCreationFailed dir e), w)
  | (.ok (), w) =>
    match w.writeFile p.path p.content with
    | (.ok (), w') => (.ok (), w')
    | (.error e, w') => (.error (.writeFailed p.path e), w')

/-- Add an entry to its registry on the disk. -/
def Settings.register (s : Settings) (a : Aggregator) (v : Volume) (root : Path)
    (entry : Script.Entry) : PatchOutcome × Volume :=
  match s.patchAggregator a v root entry with
  | .error e => (.failed a e, v)
  | .ok patched =>
    match patched.write v with
    | (.ok (), w) => (.patched a patched.path patched.seeded, w)
    | (.error e, w) => (.failed a e, w)

/-- Network functions for one screen need the directory of the screen. -/
def Settings.checkScreen (s : Settings) (v : Volume) (root : Path) (r : Request) :
    Except Problem Unit :=
  if r.archetype = .screenApi then
    match r.params.text "screen" with
    | none => .ok ()
    | some screen =>
      let dir := (root.join s.layout.screensDir).join (.ofText screen)
      if v.isDir dir then .ok ()
      else .error (.invalidParameter r.archetype "screen" screen (.noDirectory dir))
  else .ok ()

/-- What a request amounts to: its files, and its entry in a registry. -/
def Settings.prepare (s : Settings) (v : Volume) (root : Path) (r : Request) :
    Except Problem (FileTree × Option Template.RegistryEntry) := do
  let tree ← Template.instantiate s.extensions r.archetype r.params
  let entry ← Template.registryEntry r.archetype r.params
  s.checkScreen v root r
  return (tree, entry)

/-- Generate an artifact in the project at `root`. -/
def Settings.generate (s : Settings) (v : Volume) (root : Path) (r : Request) :
    Except Problem Outcome × Volume :=
  match s.prepare v root r with
  | .error e => (.error e, v)
  | .ok (tree, entry) =>
    let dir := s.layout.directory v root r.archetype
    match v.materialize (root.join dir) tree with
    | ((report, some e), w) => (.ok ⟨r.archetype, report, some e, none⟩, w)
    | ((report, none), w) =>
      match entry with
      | none => (.ok ⟨r.archetype, report, none, none⟩, w)
      | some entry =>
        let (patch, w') := s.register entry.aggregator w root (entry.entry.rootedAt dir)
        (.ok ⟨r.archetype, report, none, some patch⟩, w')

end AppScaffold
