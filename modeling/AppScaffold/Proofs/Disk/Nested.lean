import AppScaffold.Proofs.Disk.Growing
import Mathlib.Data.List.Basic
import Mathlib.Data.List.Induction
import Mathlib.Tactic.Common

/-!
# Entries that lie in directories

On a disk every entry lies in directories, and what is added at the end of a path is added in a
directory. So a way that starts from a directory ends at an entry or in a directory, whatever links it
goes through.
-/

namespace AppScaffold

open Disk

namespace Disk

/-- Every entry lies in directories. -/
def Nested (d : Disk) : Prop := ∀ loc e, d.get? loc = some e → d.Rooted loc

/-- A place that stands on a disk: an entry is there, or a directory for the free name is. -/
def Place.Stands (d : Disk) : Place → Prop
  | .found loc => ∃ e, d.get? loc = some e
  | .free dir _ _ => d.get? dir = some .dir

variable {d : Disk} {cur loc : Location} {todo : List Step} {e : Entry}

/-- What is found on a disk is its root, or it is kept. -/
theorem eq_root_or_mem_of_get? (h : d.get? loc = some e) :
    loc = [] ∧ e = .dir ∨ (loc, e) ∈ d.entries := by
  cases loc with
  | nil => exact .inl ⟨rfl, (Option.some.inj h).symm⟩
  | cons name names =>
    obtain ⟨before, after, hsplit, -⟩ := List.lookup_eq_some_iff.mp h
    exact .inr (hsplit ▸ List.mem_append_right _ List.mem_cons_self)

/-- Entries whose directories are there lie in directories. -/
theorem nested_of_entries (h : ∀ entry ∈ d.entries, d.get? entry.1.dropLast = some .dir) :
    d.Nested := by
  intro loc
  induction loc using List.reverseRecOn with
  | nil => exact fun _ _ above habove hne => absurd (List.prefix_nil.mp habove) hne
  | append_singleton front name ih =>
    intro e he above habove hne
    rcases eq_root_or_mem_of_get? he with ⟨hnil, -⟩ | hentry
    · simp at hnil
    · have hfront := h _ hentry
      rw [List.dropLast_concat] at hfront
      rcases List.prefix_concat_iff.mp habove with hsame | habove
      · exact absurd hsame hne
      · by_cases hsame : above = front
        · rwa [hsame]
        · exact ih _ hfront above habove hsame

namespace Nested

/-- The directory above a directory is there. -/
theorem get?_dropLast (hd : d.Nested) (hcur : d.get? cur = some .dir) :
    d.get? cur.dropLast = some .dir := by
  by_cases hsame : cur.dropLast = cur
  · rw [hsame]
    exact hcur
  · exact hd _ _ hcur _ (List.dropLast_prefix cur) hsame

/-- A way from a directory ends at an entry, or in a directory. -/
theorem stands (hd : d.Nested) {follow : Bool} {links : Nat} {place : Place}
    (hcur : d.get? cur = some .dir) (h : d.walk follow links cur todo = .ok place) :
    place.Stands d := by
  fun_induction walk d follow links cur todo with
  | case1 =>
    cases h
    exact ⟨_, hcur⟩
  | case2 _ _ _ ih | case3 _ _ _ ih => exact ih hcur h
  | case4 _ _ _ ih => exact ih (hd.get?_dropLast hcur) h
  | case6 | case7 =>
    cases h
    exact hcur
  | case9 _ _ _ _ _ hdir ih => exact ih hdir h
  | case10 _ _ _ _ _ _ hentry | case12 _ _ _ _ _ _ hentry =>
    cases h
    exact ⟨_, hentry⟩
  | case15 _ _ _ _ target _ _ _ _ ih =>
    refine ih ?_ h
    split_ifs
    · rfl
    · exact hcur
  | _ => cases h

/-- Nothing is below a place where nothing is. -/
theorem get?_eq_none (hd : d.Nested) (hfree : d.get? loc = none) (s : String) :
    d.get? (loc ++ [s]) = none := by
  cases hentry : d.get? (loc ++ [s]) with
  | none => rfl
  | some e =>
    have hdir := hd _ e hentry loc (List.prefix_append ..) (by simp)
    rw [hfree] at hdir
    cases hdir

end Nested

end Disk

namespace Volume

variable {v w : Volume} {p : Path}

/-- The directory from which a path starts. -/
def start (v : Volume) (p : Path) : Location := if p.isAbsolute then [] else v.cwd

/-- A disk on which every entry lies in directories, and a directory from which relative paths start. -/
structure IsNested (v : Volume) : Prop where
  /-- The directories above each entry are there. -/
  disk : v.disk.Nested
  /-- Relative paths start from a directory. -/
  cwd : v.disk.get? v.cwd = some .dir

namespace IsNested

/-- Every path starts from a directory. -/
theorem get?_start (h : v.IsNested) (p : Path) : v.disk.get? (v.start p) = some .dir := by
  rw [start]
  split_ifs
  · rfl
  · exact h.cwd

/-- A path that can be followed leads to a place that stands. -/
theorem stands_of_locate (h : v.IsNested) {follow : Bool} {todo : List Step} {place : Place}
    (hlocate : v.disk.locate v.cwd follow p todo = .ok place) : place.Stands v.disk := by
  rw [locate] at hlocate
  split at hlocate
  · cases hlocate
  · exact h.disk.stands (h.get?_start p) hlocate

/-- An entry at a free name in a directory lies in directories. -/
theorem set (h : v.IsNested) {dir : Location} {name : String} {e : Entry}
    (hdir : v.disk.get? dir = some .dir) (hfree : v.disk.get? (dir ++ [name]) = none) :
    (v.set (dir ++ [name]) e).IsNested := by
  have hne : dir ++ [name] ≠ [] := by simp
  have hwithin : Within v.disk (v.set (dir ++ [name]) e).disk := within_set hfree e
  refine ⟨fun loc f hf above habove hother => ?_, hwithin _ _ h.cwd⟩
  rw [Volume.set, get?_set _ _ _ _ hne] at hf
  apply hwithin
  split_ifs at hf with hnew
  · subst hnew
    rcases List.prefix_concat_iff.mp habove with hsame | habove
    · exact absurd hsame hother
    · by_cases hsame : above = dir
      · rw [hsame]
        exact hdir
      · exact h.disk _ _ hdir _ habove hsame
  · exact h.disk _ _ hf _ habove hother

/-- Entries that are added at the ends of paths lie in directories. -/
theorem additive : Additive fun v w => v.IsNested → w.IsNested where
  refl _ := id
  trans h h' := h' ∘ h
  set hlocate _ h := h.set (h.stands_of_locate hlocate) (get?_of_locate_free hlocate)

end IsNested

end Volume

end AppScaffold
