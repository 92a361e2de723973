import AppScaffold.Archetype
import AppScaffold.Disk.Operations
import AppScaffold.Settings
import AppScaffold.Text.Lowercase

/-!
# Projects on the disk

Some of the directories of a project depend on what is already there: the directory of the state
may be spelled in lowercase, and the screens are the directories that can be seen.
-/

namespace AppScaffold.Layout

/-- The directory of the state that is in use: the one with the last name in lowercase if there is
such a directory and no other. -/
def usedReduxDir (l : Layout) (v : Volume) (root : Path) : Path :=
  if v.isDir (root.join l.reduxDir) then l.reduxDir
  else match l.reduxDir.fileName with
    | none => l.reduxDir
    | some name =>
      let sibling := l.reduxDir.withFileName (Text.lowercase name)
      if !sibling.alike l.reduxDir && v.isDir (root.join sibling) then sibling else l.reduxDir

/-- The screens that are there, in increasing order. -/
def existingScreens (l : Layout) (v : Volume) (root : Path) : List String :=
  v.directoriesIn (root.join l.screensDir)

/-- The directory below which the files of an archetype go. -/
def directory (l : Layout) (v : Volume) (root : Path) : Archetype → Path
  | .screen | .loginScreen | .screenApi => l.screensDir
  | .component => l.componentsDir
  | .reducer | .store => l.usedReduxDir v root
  | .apiConfig | .apiFunction => l.apiDir
  | .navigation => l.navigationDir

end AppScaffold.Layout
