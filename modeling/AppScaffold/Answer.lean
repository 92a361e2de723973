import AppScaffold.Address
import AppScaffold.Name
import AppScaffold.Objection
import AppScaffold.Text.AsciiCase

/-!
# Answers

An answer is text as it was typed. It is read as the kind of value that a question asks for, the
blanks around it being free, or an objection is raised against it.
-/

namespace AppScaffold.Answer

/-- A character that cannot stand in the name of a project. -/
def breaksProjectName (c : Char) : Bool := Text.isBlank c || c == '/' || c == '\\'

/-- The name of the directory of a new project. -/
def projectName (raw : String) : Except Objection String :=
  let name := Text.trim raw
  if name = "" then .error .noProjectName
  else if name.toList.any breaksProjectName then .error .brokenProjectName
  else if name = "." || name = ".." then .error .noNewDirectory
  else .ok name

/-- The number that decimal digits write, `value` standing for those before. -/
def decimal (value : Nat) : List Char → Option Nat
  | [] => some value
  | c :: cs => if c.isDigit then decimal (10 * value + (c.toNat - 48)) cs else none

/-- The greatest number of artifacts. -/
def countLimit : Nat := 0xffffffffffffffff

/-- The characters behind a plus sign, if there is one. -/
def withoutPlus : List Char → List Char
  | '+' :: cs => cs
  | cs => cs

/-- How many artifacts there are to be. -/
def count (raw : String) : Except Objection Nat :=
  match withoutPlus (Text.trimChars raw.toList) with
  | [] => .error .noCount
  | digits =>
    match decimal 0 digits with
    | some n => if n ≤ countLimit then .ok n else .error .noCount
    | none => .error .noCount

/-- The name of an artifact. -/
def identifier (raw : String) : Except Objection String :=
  let name := Text.trim raw
  if Name.isIdentifier name then .ok name else .error .noName

/-- Yes or no; blank text is the default. -/
def yesNo (raw : String) (default : Bool) : Except Objection Bool :=
  match Text.asciiLower (Text.trim raw) with
  | "" => .ok default
  | "y" | "yes" => .ok true
  | "n" | "no" => .ok false
  | _ => .error .noYesOrNo

/-- The base address of the network interface; blank text is the default. -/
def baseUrl (raw default : String) : Except Objection String :=
  let url := Text.trim raw
  if url = "" then .ok default
  else if url.toList.any Text.isBlank then .error .blankInAddress
  else if url.toList.any Address.isQuoteOrBackslash then .error .quoteInAddress
  else .ok url

/-- The place of an entry in a menu, the case of ASCII letters being free. -/
def choice (raw : String) (choices : List String) : Except Objection Nat :=
  match choices.findIdx? fun c => Text.sameUpToCase c (Text.trim raw) with
  | some i => .ok i
  | none => .error (.offMenu choices)

/-- Identifiers between commas; blank items are left out. -/
def identifierList (raw : String) : Except Objection (List String) :=
  (((Text.split ',' raw).map Text.trim).filter (· ≠ "")).mapM identifier

end AppScaffold.Answer
