import AppScaffold.Disk.Walk

/-!
# Operations on the disk

Looking at entries, making directories, and reading and writing files. An operation that fails
leaves the disk as it was, except that the making of a chain of directories keeps those that it has
made.
-/

namespace AppScaffold

/-- A disk and the directory from which relative paths start. -/
structure Volume where
  /-- The entries. -/
  disk : Disk
  /-- Where relative paths start. -/
  cwd : Location := []

namespace Volume

/-- The entry that a path leads to, links being followed. -/
def find? (v : Volume) (p : Path) : Except Fault Entry :=
  match v.disk.locate v.cwd true p (Disk.steps p) with
  | .ok (.found loc) =>
    match v.disk.get? loc with
    | some e => .ok e
    | none => .error .notFound
  | .ok (.free ..) => .error .notFound
  | .error e => .error e

/-- The path leads to an entry. -/
def exists? (v : Volume) (p : Path) : Bool := (v.find? p).isOk

/-- The path leads to a directory. -/
def isDir (v : Volume) (p : Path) : Bool :=
  match v.find? p with
  | .ok .dir => true
  | _ => false

/-- The path leads to a file. -/
def isFile (v : Volume) (p : Path) : Bool :=
  match v.find? p with
  | .ok (.file _) => true
  | _ => false

/-- Set an entry. -/
def set (v : Volume) (loc : Location) (e : Entry) : Volume := { v with disk := v.disk.set loc e }

/-- Make one directory where nothing is. -/
def mkdir (v : Volume) (p : Path) : Except Fault Unit × Volume :=
  match v.disk.locate v.cwd false p (Disk.bareSteps p) with
  | .ok (.free dir name _) => (.ok (), v.set (dir ++ [name]) .dir)
  | .ok (.found _) => (.error .exists, v)
  | .error e => (.error e, v)

/-- Make the directory at the head of a chain; the rest of the chain holds its parents. -/
def mkdirChain (v : Volume) : List Path → Except Fault Unit × Volume
  | [] => (.error .notFound, v)
  | p :: parents =>
    if p = Path.empty then (.ok (), v)
    else match v.mkdir p with
      | (.ok (), w) => (.ok (), w)
      | (.error .notFound, _) =>
        match v.mkdirChain parents with
        | (.error e, w) => (.error e, w)
        | (.ok (), w) =>
          match w.mkdir p with
          | (.ok (), w') => (.ok (), w')
          | (.error e, _) => if w.isDir p then (.ok (), w) else (.error e, w)
      | (.error e, _) => if v.isDir p then (.ok (), v) else (.error e, v)

/-- A path and its parents, the nearest first; no more than the given number. -/
def chain : Nat → Path → List Path
  | 0, p => [p]
  | n + 1, p =>
    match p.parent with
    | some q => p :: chain n q
    | none => [p]

/-- Make a directory and all that it needs above it; an existing one will do. -/
def mkdirAll (v : Volume) (p : Path) : Except Fault Unit × Volume :=
  v.mkdirChain (chain (p.rest.length + 1) p)

/-- Make the directory above a path, if it has one. -/
def mkdirParent (v : Volume) (p : Path) : Except (Path × Fault) Unit × Volume :=
  match p.parent with
  | none => (.ok (), v)
  | some dir =>
    match v.mkdirAll dir with
    | (.ok (), w) => (.ok (), w)
    | (.error e, w) => (.error (dir, e), w)

/-- The text of a file. -/
def readText (v : Volume) (p : Path) : Except Fault String :=
  match v.find? p with
  | .ok (.file (.text s)) => .ok s
  | .ok (.file (.octets _)) => .error .notText
  | .ok _ => .error .isDirectory
  | .error e => .error e

/-- A path that ends with a slash names no file: its parents are looked for, then it is refused. -/
def refuseSlash (v : Volume) (p : Path) : Fault :=
  match v.disk.locate v.cwd false p (Disk.bareSteps p) with
  | .error e => e
  | .ok _ => .isDirectory

/-- Make a file where nothing is, not even a link. -/
def createFile (v : Volume) (p : Path) (s : String) : Except Fault Unit × Volume :=
  if Disk.endsWithSlash p then (.error (v.refuseSlash p), v)
  else match v.disk.locate v.cwd false p (Disk.steps p) with
    | .ok (.free dir name _) => (.ok (), v.set (dir ++ [name]) (.file (.text s)))
    | .ok (.found _) => (.error .exists, v)
    | .error e => (.error e, v)

/-- Write a file, in the place of an older one or anew; a link is followed, also to a free place. -/
def writeFile (v : Volume) (p : Path) (s : String) : Except Fault Unit × Volume :=
  if Disk.endsWithSlash p then (.error (v.refuseSlash p), v)
  else match v.disk.locate v.cwd true p (Disk.steps p) with
    | .ok (.free dir name false) => (.ok (), v.set (dir ++ [name]) (.file (.text s)))
    | .ok (.free _ _ true) => (.error .isDirectory, v)
    | .ok (.found loc) =>
      match v.disk.get? loc with
      | some (.file _) => (.ok (), v.set loc (.file (.text s)))
      | _ => (.error .isDirectory, v)
    | .error e => (.error e, v)

/-- The names of the directories in a directory, in increasing order; none if it cannot be listed.
A link to a directory is no directory. -/
def directoriesIn (v : Volume) (p : Path) : List String :=
  match v.disk.locate v.cwd true p (Disk.steps p) with
  | .ok (.found loc) =>
    match v.disk.get? loc with
    | some .dir =>
      let names := (v.disk.children loc).filterMap fun (name, e) =>
        if e = .dir then some name else none
      names.mergeSort fun a b => !(b < a)
    | _ => []
  | _ => []

end Volume

end AppScaffold
