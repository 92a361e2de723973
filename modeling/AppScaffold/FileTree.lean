import AppScaffold.Path

/-!
# File trees

The files that an artifact consists of, with paths from the directory of its archetype. Files keep
the order in which their paths were first added; a file added under a path that is already there
takes the place of the older one.
-/

namespace AppScaffold

/-- One file of an artifact. -/
structure GeneratedFile where
  /-- Where it goes. -/
  path : Path
  /-- What is in it. -/
  content : String
  /-- What it is, in a few words. -/
  description : String
deriving DecidableEq

/-- Files in order, no two of them with paths that are alike. -/
structure FileTree where
  /-- The files. -/
  files : List GeneratedFile := []
deriving DecidableEq

namespace FileTree

/-- Put the file in the place of the first one whose path is alike, at the end if there is none. -/
def place (file : GeneratedFile) : List GeneratedFile → List GeneratedFile
  | [] => [file]
  | f :: fs => if f.path.alike file.path then file :: fs else f :: place file fs

/-- The tree with one more file. -/
def add (t : FileTree) (path : Path) (content description : String) : FileTree :=
  ⟨place ⟨path, content, description⟩ t.files⟩

/-- The tree of the given files, added in order. -/
def ofList (files : List GeneratedFile) : FileTree := ⟨files.foldl (fun fs f => place f fs) []⟩

/-- The file whose path is alike. -/
def get? (t : FileTree) (path : Path) : Option GeneratedFile :=
  t.files.find? fun f => f.path.alike path

/-- The paths in order. -/
def paths (t : FileTree) : List Path := t.files.map GeneratedFile.path

/-- The number of files. -/
def size (t : FileTree) : Nat := t.files.length

end FileTree

end AppScaffold
