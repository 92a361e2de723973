import AppScaffold.Script.Role
import AppScaffold.Script.Search
import AppScaffold.Text.Blank

/-!
# Base addresses

The base address of the network interface stands in a string literal of a script, so that quotes
and backslashes have no place in it. It is written with a scheme and without slashes at its end.
-/

namespace AppScaffold.Address

/-- The address that is proposed when none is given. -/
def proposed : String := "http://localhost:3000"

/-- A quote of any kind, or a backslash. -/
def isQuoteOrBackslash (c : Char) : Bool := Script.isQuote c || c == '\\'

/-- The characters up to the last one that is no slash. -/
def withoutFinalSlashes (cs : List Char) : List Char := (cs.reverse.dropWhile (· == '/')).reverse

/-- A text holds another one. -/
def holds (part : List Char) : List Char → Bool
  | [] => part.isEmpty
  | c :: cs => (Script.afterText part (c :: cs)).isSome || holds part cs

/-- The address without slashes at its end, and with a scheme. -/
def normal (raw : String) : String :=
  let cs := withoutFinalSlashes (Text.trimChars raw.toList)
  if holds "://".toList cs then String.ofList cs else "http://" ++ String.ofList cs

end AppScaffold.Address
