import AppScaffold.Text.Blank

/-!
# Parameters of a request

A request carries named values. A text counts as given only if something other than blanks is in
it, and it is always taken without the blanks around it.
-/

namespace AppScaffold

/-- The value of a parameter. -/
inductive Value where
  /-- Free text. -/
  | text (s : String)
  /-- A switch. -/
  | flag (b : Bool)
  /-- Words in order. -/
  | list (items : List String)
deriving DecidableEq, Repr

instance : Coe String Value := ⟨.text⟩

instance : Coe Bool Value := ⟨.flag⟩

/-- Named values; each name occurs once. -/
structure Parameters where
  /-- The names with their values. -/
  entries : List (String × Value) := []
deriving DecidableEq, Repr

namespace Parameters

/-- The value with a name. -/
def get? (p : Parameters) (key : String) : Option Value := p.entries.lookup key

/-- The parameters with one more value, which takes the place of an older one of the same name. -/
def insert (p : Parameters) (key : String) (value : Value) : Parameters :=
  ⟨p.entries.filter (·.1 ≠ key) ++ [(key, value)]⟩

/-- The parameters with the given values, later ones winning. -/
def ofList (entries : List (String × Value)) : Parameters :=
  entries.foldl (fun p e => p.insert e.1 e.2) {}

/-- There is a value with the name. -/
def contains (p : Parameters) (key : String) : Bool := (p.get? key).isSome

/-- The text with a name, without the blanks around it; blank text is no text. -/
def text (p : Parameters) (key : String) : Option String :=
  match p.get? key with
  | some (.text s) => let t := Text.trim s; if t = "" then none else some t
  | _ => none

/-- A text that is given without any blanks is taken as it is. -/
theorem text_of_notMem {p : Parameters} {key s : String} (h : p.get? key = some (.text s))
    (hne : s ≠ "") (hblank : ∀ c ∈ s.toList, Text.isBlank c = false) : p.text key = some s := by
  unfold text
  rw [h]
  dsimp only
  rw [Text.trim_of_notMem hblank, if_neg hne]

/-- The switch with a name; off unless it is there. -/
def flag (p : Parameters) (key : String) : Bool := p.get? key = some (.flag true)

/-- The words with a name; none unless they are there. -/
def list (p : Parameters) (key : String) : List String :=
  match p.get? key with
  | some (.list items) => items
  | _ => []

end Parameters

end AppScaffold
