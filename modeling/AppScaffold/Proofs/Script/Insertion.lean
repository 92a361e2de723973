import AppScaffold.Script.Patch
import Mathlib.Data.List.Basic
import Mathlib.Tactic.Common

/-!
# Putting text in

A patch takes nothing away. What is put in stands at its place, and the script in front of it and
behind it stays as it was.
-/

namespace AppScaffold.Script

/-- Text that is put in behind other text leaves that in front. -/
theorem insertAt_append (xs ys : List Char) {index : Nat} (h : xs.length ≤ index)
    (insertion : List Char) :
    insertAt (xs ++ ys) index insertion = xs ++ insertAt ys (index - xs.length) insertion := by
  rw [insertAt, insertAt, List.take_append, List.drop_append, List.take_of_length_le h,
    List.drop_of_length_le h, List.nil_append]
  simp only [List.append_assoc]

/-- Text that is put in stands at its place. -/
theorem drop_insertAt {cs : List Char} {index : Nat} (h : index ≤ cs.length)
    (insertion : List Char) : (insertAt cs index insertion).drop index = insertion ++ cs.drop index := by
  rw [insertAt, List.append_assoc, List.drop_left' (List.length_take_of_le h)]

/-- The second of two texts that are put in stands at its place behind the first. -/
theorem isPrefix_drop_insertBoth {cs : List Char} {p q : Nat} (hp : p ≤ cs.length)
    (hq : q ≤ cs.length) (first second : List Char) :
    second <+: (insertBoth cs p first q second).drop (if q ≤ p then q else q + first.length) := by
  rw [insertBoth]
  split_ifs with hle
  · rw [drop_insertAt]
    · exact List.prefix_append ..
    · rw [insertAt]
      simp only [List.length_append, List.length_take, List.length_drop]
      omega
  · have hlen : p ≤ (insertAt cs q second).length := by
      rw [insertAt]
      simp only [List.length_append, List.length_take, List.length_drop]
      omega
    have hsum : q + first.length = p + (first.length + (q - p)) := by omega
    rw [hsum, ← List.drop_drop, drop_insertAt hlen, ← List.drop_drop, List.drop_left,
      List.drop_drop, show p + (q - p) = q by omega, drop_insertAt hq]
    exact List.prefix_append ..

/-- In front of the place where an entry is put in, a script stays as it was. -/
theorem take_insertAt {cs : List Char} {p q : Nat} (hq : q ≤ p) (hp : p ≤ cs.length)
    (insertion : List Char) : (insertAt cs p insertion).take q = cs.take q := by
  rw [insertAt, List.append_assoc, List.take_append_of_le_length, List.take_take, Nat.min_eq_left hq]
  rw [List.length_take_of_le hp]
  exact hq

/-- Text that is put in behind other text at both places leaves that in front. -/
theorem exists_insertBoth_eq (xs ys : List Char) {p q : Nat} (hp : xs.length ≤ p)
    (hq : xs.length ≤ q) (first second : List Char) :
    ∃ z, insertBoth (xs ++ ys) p first q second = xs ++ z := by
  rw [insertBoth]
  split_ifs
  · rw [insertAt_append xs ys hp, insertAt_append xs _ hq]
    exact ⟨_, rfl⟩
  · rw [insertAt_append xs ys hq, insertAt_append xs _ hp]
    exact ⟨_, rfl⟩

/-- Text that is put in leaves all other text, in order. -/
theorem sublist_insertAt (cs : List Char) (index : Nat) (insertion : List Char) :
    cs.Sublist (insertAt cs index insertion) := by
  have hparts : (cs.take index ++ cs.drop index).Sublist
      (cs.take index ++ insertion ++ cs.drop index) :=
    (List.sublist_append_left _ _).append_right _
  rwa [List.take_append_drop] at hparts

/-- A patch leaves the text of the script, in order. -/
theorem sublist_of_applyPatch {cs out : List Char} {anchor : Anchor} {fragment : List Char}
    {line : Option (List Char)} (h : applyPatch cs anchor fragment line = some out) :
    cs.Sublist out := by
  obtain ⟨point, -, rfl⟩ := Option.map_eq_some_iff.mp h
  cases line with
  | none => exact sublist_insertAt ..
  | some line =>
    simp only [insertBoth]
    split_ifs
    · exact (sublist_insertAt ..).trans (sublist_insertAt ..)
    · exact (sublist_insertAt ..).trans (sublist_insertAt ..)

/-- A script with a text put in is longer by that text. -/
theorem length_insertAt (cs : List Char) (index : Nat) (insertion : List Char) :
    (insertAt cs index insertion).length = cs.length + insertion.length := by
  rw [insertAt]
  simp only [List.length_append, List.length_take, List.length_drop]
  omega

/-- Something is put in for an entry, at the end of a script if the entry is not empty. -/
theorem entryBlock_ne_nil {anchor : Anchor} {fragment : List Char}
    (h : anchor = .fileEnd → fragment ≠ []) (needsSeparator : Bool) :
    entryBlock anchor needsSeparator fragment ≠ [] := by
  rw [entryBlock]
  by_cases hend : anchor = .fileEnd
  · rw [if_pos hend]
    exact List.append_ne_nil_of_right_ne_nil _ (h hend)
  · rw [if_neg hend]
    exact List.append_ne_nil_of_right_ne_nil _ (List.cons_ne_nil _ _)

/-- A patch makes the script longer. -/
theorem length_lt_of_applyPatch {cs out : List Char} {anchor : Anchor} {fragment : List Char}
    {line : Option (List Char)} (hfragment : anchor = .fileEnd → fragment ≠ [])
    (h : applyPatch cs anchor fragment line = some out) : cs.length < out.length := by
  obtain ⟨point, -, rfl⟩ := Option.map_eq_some_iff.mp h
  have hblock := List.length_pos_iff.mpr (entryBlock_ne_nil hfragment point.needsSeparator)
  cases line with
  | none =>
    rw [length_insertAt]
    omega
  | some line =>
    simp only [insertBoth]
    split_ifs
    all_goals
      rw [length_insertAt, length_insertAt]
      omega

end AppScaffold.Script
