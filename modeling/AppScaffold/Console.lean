/-!
# The console

What has been printed, on the standard output and on the channel for errors.
-/

namespace AppScaffold

/-- What has been printed. -/
structure Console where
  /-- On the standard output. -/
  out : String := ""
  /-- On the channel for errors. -/
  err : String := ""
deriving DecidableEq

namespace Console

/-- Two prints, one after the other. -/
def append (a b : Console) : Console := ⟨a.out ++ b.out, a.err ++ b.err⟩

instance : Append Console := ⟨append⟩

/-- A print on the standard output. -/
def print (s : String) : Console := { out := s }

/-- A line on the standard output. -/
def line (s : String) : Console := print (s ++ "\n")

/-- A line on the channel for errors. -/
def errorLine (s : String) : Console := { err := s ++ "\n" }

/-- Lines on the standard output. -/
def lines (ls : List String) : Console := print (String.join (ls.map (· ++ "\n")))

end Console

end AppScaffold
