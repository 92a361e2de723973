import AppScaffold.Config.Load
import AppScaffold.Name
import AppScaffold.Problem

/-!
# Failures of commands

Why a command has not done its work, as it is told on the console: what failed, and what caused it,
from the nearest cause to the last one.
-/

namespace AppScaffold.CommandLine

/-- Why a command has failed. -/
inductive Failure where
  /-- The command needs the name of something of this kind. -/
  | missingName (kind : String)
  /-- The name cannot be used for something of this kind. -/
  | invalidName (kind name : String)
  /-- There are no settings. -/
  | configuration (p : ConfigProblem)
  /-- It could not be found out what to do. -/
  | undecided (p : Problem)
  /-- The request was refused. -/
  | refused (archetype : Archetype) (p : Problem)
  /-- Something is missing of what was to be made. -/
  | incomplete (archetype : Archetype)
  /-- The file with the brief cannot be read. -/
  | unreadableBrief (file : Path) (fault : Fault)
  /-- The brief is no brief. -/
  | invalidBrief (p : Problem)
  /-- There is something in the place of the project. -/
  | projectExists (name : String)
  /-- The project was not created. -/
  | notCreated (p : Problem)
  /-- The packages were not installed. -/
  | notInstalled (p : Problem)
  /-- So many requests of a plan were refused or left something missing. -/
  | incompleteProject (count : Nat)
deriving DecidableEq

namespace Failure

/-- The indefinite article before a word. -/
def article (word : String) : String :=
  match word.toList with
  | c :: _ => if "aeiou".toList.contains c.toLower then "an" else "a"
  | [] => "a"

/-- What failed. -/
def message : Failure → String
  | missingName kind => "Please specify " ++ article kind ++ " " ++ kind ++ " name"
  | invalidName kind name =>
    "Invalid " ++ kind ++ " name: " ++ name ++
      ". Names must start with a letter and contain only letters, digits and underscores"
  | configuration _ => "Failed to load configuration"
  | undecided p => p.message
  | refused a _ => "Failed to generate " ++ a.key
  | incomplete a => a.key ++ " generation finished with errors"
  | unreadableBrief file _ => "Failed to read project brief: " ++ file.text
  | invalidBrief _ => "Invalid project brief"
  | projectExists name =>
    "Directory '" ++ name ++ "' already exists. Please choose a different name or remove the " ++
      "existing directory."
  | notCreated _ => "Failed to initialize project"
  | notInstalled _ => "Failed to install dependencies"
  | incompleteProject count => toString count ++ " generation request(s) finished with errors"

/-- What caused it. -/
def causes (v : Volume) : Failure → List String
  | configuration p => ["Configuration error: " ++ p.message v, p.message v]
  | refused _ p | invalidBrief p | notCreated p | notInstalled p => [p.message]
  | unreadableBrief _ fault => [fault.message]
  | _ => []

/-- A text with its later lines moved to the right. -/
def indented (first later text : String) : String :=
  first ++ Text.join ("\n" ++ later) (Text.split '\n' text)

/-- Causes with their numbers. -/
def numbered (start : Nat) : List String → String
  | [] => ""
  | cause :: causes =>
    "\n" ++ indented ("    " ++ toString start ++ ": ") "       " cause ++
      numbered (start + 1) causes

/-- The causes as they are told; a single one has no number. -/
def told : List String → String
  | [] => ""
  | [cause] => "\n\nCaused by:\n" ++ indented "    " "    " cause
  | causes => "\n\nCaused by:" ++ numbered 0 causes

/-- The failure as it is told. -/
def text (v : Volume) (f : Failure) : String := "Error: " ++ f.message ++ told (f.causes v)

end Failure

/-- The name that a command was given, which must be one of an artifact. -/
def requireName (name : Option String) (kind : String) : Except Failure String :=
  let trimmed := Text.trim (name.getD "")
  if trimmed = "" then .error (.missingName kind)
  else if Name.isIdentifier trimmed then .ok trimmed
  else .error (.invalidName kind trimmed)

end AppScaffold.CommandLine
