import AppScaffold.Path

/-!
# The disk

The state of a file system: which entries there are, and what is in them. An entry is found by the
names that lead to it from the root, without dots and links. The root itself is a directory that is
always there.
-/

namespace AppScaffold

/-- The names that lead from the root to an entry. -/
abbrev Location := List String

/-- What is in a file. -/
inductive Content where
  /-- A text. -/
  | text (s : String)
  /-- Octets that form no text. -/
  | octets (bytes : List UInt8)
deriving DecidableEq, Repr

/-- An entry of a directory. -/
inductive Entry where
  /-- A file. -/
  | file (content : Content)
  /-- A directory. -/
  | dir
  /-- A link to the place that a path leads to. -/
  | link (target : Path)
deriving DecidableEq

/-- All entries below the root, each location once. -/
structure Disk where
  /-- The entries with their locations. -/
  entries : List (Location × Entry) := []

namespace Disk

/-- The entry at a location. -/
def get? (d : Disk) : Location → Option Entry
  | [] => some .dir
  | loc => d.entries.lookup loc

/-- The disk with one entry set. -/
def set (d : Disk) (loc : Location) (e : Entry) : Disk :=
  ⟨(loc, e) :: d.entries.filter (·.1 ≠ loc)⟩

/-- The disk without an entry and all that is below it. -/
def remove (d : Disk) (loc : Location) : Disk :=
  ⟨d.entries.filter fun e => !loc.isPrefixOf e.1⟩

/-- The names of the entries in a directory, with the entries. -/
def children (d : Disk) (loc : Location) : List (String × Entry) :=
  d.entries.filterMap fun e =>
    match e.1.getLast? with
    | some name => if e.1.dropLast = loc then some (name, e.2) else none
    | none => none

/-- An entry that was set is found; the others are as before. -/
theorem get?_set (d : Disk) (loc other : Location) (e : Entry) (h : loc ≠ []) :
    (d.set loc e).get? other = if other = loc then some e else d.get? other := by
  cases other with
  | nil => simp [get?, Ne.symm h]
  | cons name names =>
    simp only [get?, set, List.lookup_cons]
    by_cases heq : name :: names = loc
    · simp [heq]
    · have hne : (name :: names == loc) = false := by simpa using heq
      simp only [hne, heq, if_false]
      induction d.entries with
      | nil => rfl
      | cons x xs ih =>
        obtain ⟨k, v⟩ := x
        simp only [ne_eq, decide_not] at ih
        by_cases hx : k = loc
        · simp [hx, hne, List.lookup_cons, ih]
        · simp [hx, List.lookup_cons, ih]

end Disk

end AppScaffold
