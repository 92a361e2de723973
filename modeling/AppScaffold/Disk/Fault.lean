/-!
# Faults of the file system

The reasons for which an operation on files or directories fails, with the text that the operating
system gives for each.
-/

namespace AppScaffold

/-- Why an operation on the file system failed. -/
inductive Fault where
  /-- Something on the way to the entry, or the entry, is missing. -/
  | notFound
  /-- There is an entry already. -/
  | exists
  /-- Something on the way to the entry is not a directory. -/
  | notDirectory
  /-- The entry is a directory. -/
  | isDirectory
  /-- A name or the path is too long. -/
  | nameTooLong
  /-- Links lead to links without end. -/
  | tooManyLinks
  /-- The content of the file is no text. -/
  | notText
  /-- A name holds the character zero. -/
  | zeroInName
deriving DecidableEq, Repr

/-- The text for the fault. -/
def Fault.message : Fault → String
  | notFound => "No such file or directory (os error 2)"
  | .exists => "File exists (os error 17)"
  | notDirectory => "Not a directory (os error 20)"
  | isDirectory => "Is a directory (os error 21)"
  | nameTooLong => "File name too long (os error 36)"
  | tooManyLinks => "Too many levels of symbolic links (os error 40)"
  | notText => "stream did not contain valid UTF-8"
  | zeroInName => "file name contained an unexpected NUL byte"

end AppScaffold
