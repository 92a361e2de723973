import AppScaffold.Disk.Operations
import AppScaffold.FileTree
import AppScaffold.Problem

/-!
# Files onto the disk

The files of a tree are written below a directory one after the other. What is already there stays
as it is and is reported as skipped, so that files changed by hand survive. The first failure ends
the work; the files before it stay.
-/

namespace AppScaffold

/-- What has become of the files of a tree. -/
structure Report where
  /-- The files that were made, in order. -/
  created : List Path := []
  /-- The files that were already there, in order. -/
  skipped : List Path := []
deriving DecidableEq

/-- Nothing was made. -/
def Report.isNoop (r : Report) : Bool := r.created.isEmpty

/-- What has become of one file. -/
inductive Placement where
  /-- It was made. -/
  | created
  /-- Something was already there. -/
  | skipped
deriving DecidableEq

/-- The report with one more file at its front. -/
def Report.precede (r : Report) (path : Path) : Placement → Report
  | .created => { r with created := path :: r.created }
  | .skipped => { r with skipped := path :: r.skipped }

namespace Volume

/-- Make a file where nothing is; a link counts as something, wherever it leads. -/
def createNew (v : Volume) (path : Path) (content : String) : Except Fault Placement × Volume :=
  if v.exists? path then (.ok .skipped, v)
  else match v.createFile path content with
    | (.ok (), w) => (.ok .created, w)
    | (.error .exists, w) => (.ok .skipped, w)
    | (.error e, w) => (.error e, w)

/-- Make a file and the directories above it. -/
def placeFile (v : Volume) (path : Path) (content : String) : Except Problem Placement × Volume :=
  match v.mkdirParent path with
  | (.error (dir, e), w) => (.error (.directoryCreationFailed dir e), w)
  | (.ok (), w) =>
    match w.createNew path content with
    | (.ok placement, w') => (.ok placement, w')
    | (.error e, w') => (.error (.writeFailed path e), w')

/-- Make the files below a directory, in order, up to the first that cannot be made. -/
def placeFiles (v : Volume) (root : Path) : List GeneratedFile → (Report × Option Problem) × Volume
  | [] => (({}, none), v)
  | f :: fs =>
    match v.placeFile (root.join f.path) f.content with
    | (.error e, w) => (({}, some e), w)
    | (.ok placement, w) =>
      match w.placeFiles root fs with
      | ((report, problem), w') => ((report.precede (root.join f.path) placement, problem), w')

/-- Make the files of a tree below a directory. -/
def materialize (v : Volume) (root : Path) (tree : FileTree) : (Report × Option Problem) × Volume :=
  v.placeFiles root tree.files

end Volume

end AppScaffold
