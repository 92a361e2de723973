import AppScaffold.Path

/-!
# Objections to values

The reasons for which an answer or a parameter is refused.
-/

namespace AppScaffold

/-- Why a value is refused. -/
inductive Objection where
  /-- A project needs a name. -/
  | noProjectName
  /-- The name of a project is one word and one segment of a path. -/
  | brokenProjectName
  /-- The name of a project is the name of a directory that is not there yet. -/
  | noNewDirectory
  /-- A number is wanted. -/
  | noCount
  /-- A name is wanted that can be used in scripts. -/
  | noName
  /-- Yes or no is wanted. -/
  | noYesOrNo
  /-- Blanks inside an address. -/
  | blankInAddress
  /-- Quotes or backslashes inside an address. -/
  | quoteInAddress
  /-- The answer is no entry of the menu. -/
  | offMenu (choices : List String)
  /-- The value is none of those that are known. -/
  | unknownChoice (choices : List String)
  /-- The screen has been named before. -/
  | listedScreen (name : String)
  /-- Two screens of a brief have one name. -/
  | repeatedScreen
  /-- A brief announces another number of screens than it names. -/
  | screenCount (given : Nat)
  /-- A parameter has to be an identifier. -/
  | noIdentifier
  /-- A parameter with an address has quotes or backslashes in it. -/
  | quoteInUrl
  /-- An element has to be an identifier. -/
  | noElement
  /-- There is no such directory. -/
  | noDirectory (path : Path)
  /-- A document cannot be read, for the reason given. -/
  | unreadable (reason : String)
deriving DecidableEq

/-- The text of the objection. -/
def Objection.message : Objection → String
  | noProjectName => "project name cannot be empty"
  | brokenProjectName => "project name cannot contain spaces or path separators"
  | noNewDirectory => "project name must name a new directory"
  | noCount => "enter a whole number, 0 or more"
  | noName => "names must start with a letter and contain only letters, digits and underscores"
  | noYesOrNo => "answer yes or no"
  | blankInAddress => "the base URL cannot contain spaces"
  | quoteInAddress => "the base URL cannot contain quotes or backslashes"
  | offMenu choices => "choose one of: " ++ Text.join ", " choices
  | unknownChoice choices => "expected one of: " ++ Text.join ", " choices
  | listedScreen name => "a screen named " ++ name ++ " is already listed"
  | repeatedScreen => "screen names must be unique"
  | screenCount given => toString given ++ " screen names were given"
  | noIdentifier => "must start with a letter and contain only letters, digits and underscores"
  | quoteInUrl => "quotes and backslashes are not allowed in a URL"
  | noElement => "element names must be JSX identifiers"
  | noDirectory path => path.text ++ " is not a directory"
  | unreadable reason => reason

end AppScaffold
