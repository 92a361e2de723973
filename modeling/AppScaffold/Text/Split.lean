/-!
# Splitting and measuring text

A text is cut at each occurrence of a separator, empty pieces included. Places in a text are
counted in characters; the size of a text in octets is that of its UTF-8 form.
-/

namespace AppScaffold.Text

/-- The pieces between the separators; there is always at least one. -/
def splitChars (sep : Char) : List Char → List (List Char)
  | [] => [[]]
  | c :: cs =>
    if c = sep then [] :: splitChars sep cs
    else match splitChars sep cs with
      | [] => [[c]]
      | piece :: pieces => (c :: piece) :: pieces

/-- The pieces of a text between the separators. -/
def split (sep : Char) (s : String) : List String := (splitChars sep s.toList).map String.ofList

/-- The pieces joined by a separator text. -/
def join (sep : String) : List String → String
  | [] => ""
  | [piece] => piece
  | piece :: pieces => piece ++ sep ++ join sep pieces

/-- The number of octets of the UTF-8 form. -/
def octets : List Char → Nat
  | [] => 0
  | c :: cs => c.utf8Size + octets cs

/-- The number of octets before the character with the given index. -/
def octetOffset (cs : List Char) (index : Nat) : Nat := octets (cs.take index)

/-- The number of characters that begin before an octet. -/
def indexOfOctet : List Char → Nat → Nat
  | [], _ => 0
  | c :: cs, n => if n = 0 then 0 else indexOfOctet cs (n - c.utf8Size) + 1

/-- A separator makes one more piece than it occurs. -/
theorem length_splitChars (sep : Char) (cs : List Char) :
    (splitChars sep cs).length = cs.count sep + 1 := by
  induction cs with
  | nil => rfl
  | cons c cs ih =>
    unfold splitChars
    split
    · next h => simp [ih, h]
    · next h =>
      cases hs : splitChars sep cs with
      | nil => simp [hs] at ih
      | cons piece pieces => simp [hs] at ih ⊢; simp [h, ih]

/-- A text without the separator is one piece. -/
theorem splitChars_of_notMem {sep : Char} {cs : List Char} (h : sep ∉ cs) :
    splitChars sep cs = [cs] := by
  induction cs with
  | nil => rfl
  | cons c cs ih =>
    rw [List.mem_cons, not_or] at h
    rw [splitChars, if_neg (Ne.symm h.1), ih h.2]

/-- The first separator ends the first piece. -/
theorem splitChars_append {sep : Char} {cs : List Char} (h : sep ∉ cs) (rest : List Char) :
    splitChars sep (cs ++ sep :: rest) = cs :: splitChars sep rest := by
  induction cs with
  | nil => rw [List.nil_append, splitChars, if_pos rfl]
  | cons c cs ih =>
    rw [List.mem_cons, not_or] at h
    rw [List.cons_append, splitChars, if_neg (Ne.symm h.1), ih h.2]

/-- A separator cuts what stands before it from what stands behind it. -/
theorem splitChars_append_cons (sep : Char) (cs rest : List Char) :
    splitChars sep (cs ++ sep :: rest) = splitChars sep cs ++ splitChars sep rest := by
  induction cs with
  | nil => simp [splitChars]
  | cons c cs ih =>
    rw [List.cons_append, splitChars, splitChars, ih]
    split
    · rw [List.cons_append]
    · cases hcs : splitChars sep cs with
      | nil =>
        have hlength := length_splitChars sep cs
        rw [hcs, List.length_nil] at hlength
        omega
      | cons piece pieces => rfl

/-- Pieces without the separator are found again when they have been joined. -/
theorem split_join {sep : Char} {pieces : List String} (hne : pieces ≠ [])
    (h : ∀ piece ∈ pieces, sep ∉ piece.toList) :
    split sep (join (String.singleton sep) pieces) = pieces := by
  induction pieces with
  | nil => exact absurd rfl hne
  | cons piece pieces ih =>
    have hpiece := h piece List.mem_cons_self
    cases pieces with
    | nil => rw [join, split, splitChars_of_notMem hpiece, List.map_singleton, String.ofList_toList]
    | cons next pieces =>
      have hrest := ih (List.cons_ne_nil _ _) fun p hp => h p (List.mem_cons_of_mem _ hp)
      rw [split] at hrest
      rw [join, split, String.toList_append, String.toList_append, String.toList_singleton,
        List.append_assoc, List.singleton_append, splitChars_append hpiece, List.map_cons, hrest,
        String.ofList_toList]
      exact List.cons_ne_nil _ _

end AppScaffold.Text
