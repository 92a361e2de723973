/-!
# Named values

A list of values with names, each name once, in the order in which the names came.
-/

namespace AppScaffold

/-- Values with names. -/
abbrev Entries (α : Type) := List (String × α)

namespace Entries

variable {α : Type}

/-- The entries with one of them replaced, or added at the end. -/
def put (name : String) (a : α) : Entries α → Entries α
  | [] => [(name, a)]
  | (n, b) :: entries => if n = name then (n, a) :: entries else (n, b) :: put name a entries

/-- What was put is found under its name; the other entries are as before. -/
theorem lookup_put (name other : String) (a : α) (entries : Entries α) :
    (entries.put name a).lookup other = if other = name then some a else entries.lookup other := by
  induction entries with
  | nil =>
    by_cases h : other = name
    · simp [put, h]
    · simp [put, h]
  | cons x xs ih =>
    obtain ⟨n, b⟩ := x
    by_cases hn : n = name
    · subst hn
      by_cases h : other = n
      · simp [put, h]
      · have hne : (other == n) = false := by simpa using h
        simp [put, h, List.lookup_cons, hne]
    · by_cases h : other = n
      · subst h
        simp [put, hn]
      · have hne : (other == n) = false := by simpa using h
        simp [put, hn, List.lookup_cons, hne, ih]

end Entries

end AppScaffold
