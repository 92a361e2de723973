import AppScaffold.CommandLine.Run

/-!
# The program

The outer layer. A call is carried out on what is known of the disk, and the disk is looked at
wherever the call would change it, until nothing new is found; then the changes are written.
Directories are not listed: the screens of a project are looked for under the names that stand in
its registries.
-/

namespace AppScaffold

/-- What is known of the disk. -/
structure Knowledge where
  /-- The entries that are known. -/
  volume : Volume
  /-- The locations that have been looked at. -/
  seen : List Location := []

/-- What is in a file with these octets. -/
def Content.ofBytes (bytes : ByteArray) : Content :=
  match String.fromUTF8? bytes with
  | some s => .text s
  | none => .octets bytes.toList

/-- The location that a path means in a directory. -/
def Location.ofPath (cwd : Location) (p : Path) : Location :=
  p.components.foldl
    (fun loc c =>
      match c with
      | .root => []
      | .here => loc
      | .up => loc.dropLast
      | .name s => loc ++ [s])
    cwd

/-- The entry at a location of the disk. What can be opened but not read is a directory. -/
def readEntry (loc : Location) : IO (Option Entry) := do
  let path := (Location.path loc).text
  match ← (IO.FS.readBinFile path).toBaseIO with
  | .ok bytes => return some (.file (.ofBytes bytes))
  | .error _ =>
    let opened ← (IO.FS.Handle.mk path .read).toBaseIO
    return if opened.toOption.isSome then some .dir else none

namespace Knowledge

/-- Look at one location. -/
def lookAt (k : Knowledge) (loc : Location) : IO Knowledge := do
  if loc.isEmpty || k.seen.contains loc then return k
  else
    let seen := loc :: k.seen
    return match ← readEntry loc with
      | some e => ⟨k.volume.set loc e, seen⟩
      | none => { k with seen }

/-- Look at all locations on the way to one. -/
def lookAlong (k : Knowledge) (loc : Location) : IO Knowledge :=
  (Location.upward loc).reverse.foldlM lookAt k

/-- Look at all locations on the way of a path. -/
def lookFor (k : Knowledge) (p : Path) : IO Knowledge :=
  k.lookAlong (.ofPath k.volume.cwd p)

/-- Look at what the settings of a project name. -/
def lookAtLayout (k : Knowledge) (root : Path) (l : Layout) : IO Knowledge := do
  let sibling := l.reduxDir.withFileName (Text.lowercase (l.reduxDir.fileName.getD ""))
  let places := [l.screensDir, l.componentsDir, l.reduxDir, sibling, l.apiDir, l.navigationDir,
    l.screenRegistry, l.loginRegistry]
  let k ← places.foldlM (fun k p => k.lookFor (root.join p)) k
  let registered := [l.screenRegistry, l.loginRegistry].flatMap fun p =>
    let text := (k.volume.readText (root.join p)).toOption.getD ""
    Text.split ' ' (text.map fun c => if c.isAlphanum || c == '_' then c else ' ')
  registered.foldlM (fun k name => k.lookFor ((root.join l.screensDir).join (.ofText name))) k

/-- Look at what a call may read. -/
def lookFirst (k : Knowledge) (args : List String) (env : Environment.Variables) :
    IO Knowledge := do
  match CommandLine.Call.ofArguments args with
  | .error _ => return k
  | .ok call =>
    let root := call.root k.volume
    let k ← (Location.upward k.volume.cwd).foldlM
      (fun k loc => k.lookFor ((Location.path loc).join (root.join configFileName))) k
    let k ← match call.option "answers" with
      | some file => k.lookFor (.ofText file)
      | none => pure k
    match Settings.load k.volume env root with
    | .error _ => return k
    | .ok s => k.lookAtLayout root s.layout

/-- The entries that differ from what is known. -/
def changes (k : Knowledge) (after : Volume) : List (Location × Entry) :=
  after.disk.entries.filter fun e => k.volume.disk.get? e.1 ≠ some e.2

/-- Carry out a call again and again until everything that it changes has been looked at. -/
def settle (args : List String) (env : Environment.Variables) :
    Nat → Knowledge → IO (Knowledge × Finished)
  | 0, k => return (k, ⟨.code 1, k.volume, .errorLine "Error: The disk does not keep still"⟩)
  | rounds + 1, k => do
    let f := CommandLine.execute args { volume := k.volume, environment := env }
    let unseen := (k.changes f.volume).filter fun e => !k.seen.contains e.1
    if unseen.isEmpty then return (k, f)
    else settle args env rounds (← unseen.foldlM (fun k e => k.lookAlong e.1) k)

end Knowledge

/-- Write an entry to the disk. -/
def writeEntry (loc : Location) (e : Entry) : IO Unit :=
  let path := (Location.path loc).text
  match e with
  | .dir => IO.FS.createDirAll path
  | .file (.text s) => IO.FS.writeFile path s
  | .file (.octets bytes) => IO.FS.writeBinFile path ⟨bytes.toArray⟩
  | .link _ => pure ()

/-- The variables of the environment. -/
def readVariables : IO Environment.Variables := do
  match ← (IO.FS.readBinFile "/proc/self/environ").toBaseIO with
  | .error _ => return []
  | .ok bytes =>
    return (Text.split '\x00' ((String.fromUTF8? bytes).getD "")).filterMap fun s =>
      match Text.split '=' s with
      | name :: first :: rest => some (name, Text.join "=" (first :: rest))
      | _ => none

end AppScaffold

open AppScaffold in
/-- Carries out the call with the given arguments. -/
def main (args : List String) : IO UInt32 := do
  let cwd := Location.ofPath [] (.ofText (toString (← IO.currentDir)))
  let env ← readVariables
  let k ← Knowledge.lookFirst { volume := { disk := {}, cwd } } args env
  let (k, f) ← k.settle args env 100
  let changed := (k.changes f.volume).mergeSort fun a b => a.1.length ≤ b.1.length
  changed.forM fun e => writeEntry e.1 e.2
  IO.print f.console.out
  IO.eprint f.console.err
  return match f.status with
    | .code n => n.toUInt32
    | .signal n => (128 + n).toUInt32
