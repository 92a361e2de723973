import AppScaffold.Archetype
import AppScaffold.Disk.Fault
import AppScaffold.Objection

/-!
# Problems

Everything that can go wrong while artifacts are generated. A rejection is a problem that is found
before anything has been written.
-/

namespace AppScaffold

/-- What went wrong. -/
inductive Problem where
  /-- No archetype has this key. -/
  | unknownArchetype (key : String)
  /-- The archetype cannot do without the parameter. -/
  | missingParameter (archetype : Archetype) (parameter : String)
  /-- The archetype cannot use the value of the parameter. -/
  | invalidParameter (archetype : Archetype) (parameter value : String) (objection : Objection)
  /-- A directory could not be made. -/
  | directoryCreationFailed (path : Path) (fault : Fault)
  /-- A file could not be written. -/
  | writeFailed (path : Path) (fault : Fault)
  /-- A file that is there could not be read. -/
  | readFailed (path : Path) (fault : Fault)
  /-- A file has lost the place where entries are added. -/
  | anchorNotFound (path : Path) (marker : String)
  /-- A program that was run has failed. -/
  | externalProcessFailed (program detail : String)
  /-- An answer was refused. -/
  | invalidAnswer (prompt answer : String) (objection : Objection)
  /-- There is no screen in the directory of screens. -/
  | noScreens (path : Path)
  /-- No answer could be had. -/
  | promptFailed (reason : String)
deriving DecidableEq

namespace Problem

/-- The text of the problem. -/
def message : Problem → String
  | unknownArchetype key => "Unknown archetype: '" ++ key ++ "'"
  | missingParameter a parameter =>
    "Missing parameter '" ++ parameter ++ "' for archetype '" ++ a.key ++ "'"
  | invalidParameter a parameter value objection =>
    "Invalid value '" ++ value ++ "' for parameter '" ++ parameter ++ "' of archetype '" ++ a.key ++
      "': " ++ objection.message
  | directoryCreationFailed path fault =>
    "Failed to create directory " ++ path.text ++ ": " ++ fault.message
  | writeFailed path fault => "Failed to write file " ++ path.text ++ ": " ++ fault.message
  | readFailed path fault => "Failed to read file " ++ path.text ++ ": " ++ fault.message
  | anchorNotFound path marker => "Anchor `" ++ marker ++ "` not found in " ++ path.text
  | externalProcessFailed program detail =>
    "External process `" ++ program ++ "` failed: " ++ detail
  | invalidAnswer prompt answer objection =>
    "Invalid answer '" ++ answer ++ "' to \"" ++ prompt ++ "\": " ++ objection.message
  | noScreens path => "No screens found in " ++ path.text
  | promptFailed reason => "Prompt failed: " ++ reason

/-- The problem was found before anything was written. -/
def isRejection : Problem → Bool
  | unknownArchetype _ | missingParameter .. | invalidParameter .. => true
  | _ => false

end Problem

end AppScaffold
