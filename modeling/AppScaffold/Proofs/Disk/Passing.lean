import AppScaffold.Proofs.Disk.Extending
import Mathlib.Tactic.Common

/-!
# What success says about a path

A file is made or written only where its path could be followed to the end: the path is not too long,
and neither is any name in it. The success of an operation therefore tells that names can follow the
path of a directory.
-/

namespace AppScaffold

open Disk

namespace Disk

variable {d : Disk} {cwd cur : Location} {follow : Bool} {links : Nat} {todo : List Step}
  {place : Place} {p : Path}

/-- Names on a way that was followed to the end are not too long. -/
theorem short_of_walk (h : d.walk follow links cur todo = .ok place) {s : String}
    (hs : .name s ∈ todo) : s.utf8ByteSize ≤ nameLimit := by
  fun_induction walk d follow links cur todo with
  | case1 => cases hs
  | case2 _ _ _ ih | case3 _ _ _ ih | case4 _ _ _ ih =>
    exact ih h (by simpa using hs)
  | case6 _ _ _ hlimit | case7 _ _ _ hlimit =>
    simp only [List.mem_cons, List.not_mem_nil, or_false, Step.name.injEq, reduceCtorEq] at hs
    rw [hs]
    exact Nat.le_of_not_lt hlimit
  | case9 _ _ _ _ hlimit _ ih =>
    rcases List.mem_cons.mp hs with hsame | hs
    · rw [Step.name.inj hsame]
      exact Nat.le_of_not_lt hlimit
    · exact ih h hs
  | case10 _ _ _ _ hlimit _ _ hrest =>
    rw [List.isEmpty_iff.mp hrest, List.mem_singleton] at hs
    rw [Step.name.inj hs]
    exact Nat.le_of_not_lt hlimit
  | case12 _ _ _ _ hlimit _ _ hrest =>
    rw [Bool.and_eq_true, List.isEmpty_iff] at hrest
    rw [hrest.1, List.mem_singleton] at hs
    rw [Step.name.inj hs]
    exact Nat.le_of_not_lt hlimit
  | case15 _ _ _ hlimit _ _ _ _ _ ih =>
    rcases List.mem_cons.mp hs with hsame | hs
    · rw [Step.name.inj hsame]
      exact Nat.le_of_not_lt hlimit
    · exact ih h (List.mem_append_right _ hs)
  | _ => cases h

/-- That something is there already is no reason for a way to end. -/
theorem walk_ne_exists (d : Disk) (follow : Bool) (links : Nat) (cur : Location)
    (todo : List Step) : d.walk follow links cur todo ≠ .error .exists := by
  fun_induction walk d follow links cur todo with
  | case2 _ _ _ ih | case3 _ _ _ ih | case4 _ _ _ ih => exact ih
  | case9 _ _ _ _ _ _ ih | case15 _ _ _ _ _ _ _ _ _ ih => exact ih
  | _ => simp

/-- That something is there already is no reason for not finding a place. -/
theorem locate_ne_exists (d : Disk) (cwd : Location) (follow : Bool) (p : Path)
    (todo : List Step) : d.locate cwd follow p todo ≠ .error .exists := by
  unfold locate
  split
  · next e he =>
    rintro h
    rw [Except.error.inj h] at he
    unfold admissible at he
    split_ifs at he
    all_goals cases he
  · exact walk_ne_exists _ _ _ _ _

end Disk

/-- A path that the file system takes: it can be handed over, and no name in it is too long. -/
structure Path.IsPassable (p : Path) : Prop where
  /-- It can be handed over. -/
  admissible : Disk.admissible p = .ok ()
  /-- Its names are not too long. -/
  short : ∀ s, .name s ∈ bareSteps p → s.utf8ByteSize ≤ nameLimit

namespace Path.IsPassable

variable {p : Path}

/-- A path that was followed to the end is passable. -/
theorem of_locate {d : Disk} {cwd : Location} {follow : Bool} {todo : List Step} {place : Place}
    (h : d.locate cwd follow p (bareSteps p ++ todo) = .ok place) : p.IsPassable := by
  unfold locate at h
  cases hadmissible : Disk.admissible p with
  | error e =>
    rw [hadmissible] at h
    cases h
  | ok =>
    rw [hadmissible] at h
    exact ⟨hadmissible, fun s hs => short_of_walk h (List.mem_append_left _ hs)⟩

/-- Names at the end of a passable path can follow what is before them. -/
theorem follows {names : List String} (h : (p.extend names).IsPassable)
    (hnames : ∀ s ∈ names, segmentStep s = some (.name s)) : Follows p names := by
  have hadmissible := h.admissible
  unfold Disk.admissible at hadmissible
  split_ifs at hadmissible with hzero hempty hlong
  rw [Path.utf8ByteSize_text_extend] at hlong
  refine ⟨fun s hs => ⟨hnames s hs, fun c hc hc0 => hzero ?_, h.short s ?_⟩, Nat.lt_of_not_le hlong⟩
  · rw [List.any_eq_true]
    refine ⟨c, ?_, decide_eq_true hc0⟩
    rw [Path.toList_text, Path.extend, List.flatMap_append]
    refine List.mem_append_right _ (List.mem_append_right _ ?_)
    exact List.mem_flatMap.mpr ⟨s, hs, List.mem_cons_of_mem _ hc⟩
  · refine List.mem_filterMap.mpr ⟨s, ?_, hnames s hs⟩
    exact List.mem_cons_of_mem _ (List.mem_append_right _ hs)

end Path.IsPassable

namespace Volume

variable {v w : Volume} {p : Path}

/-- A path that leads to an entry is passable. -/
theorem isPassable_of_find? {e : Entry} (h : v.find? p = .ok e) : p.IsPassable := by
  unfold find? at h
  split at h
  · next loc hlocate => exact .of_locate hlocate
  · cases h
  · cases h

/-- Where a file was made, or something was found in its place, the path is passable. -/
theorem isPassable_of_createNew {t : String} {placement : Placement} (hslash : ¬endsWithSlash p)
    (h : v.createNew p t = (.ok placement, w)) : p.IsPassable := by
  unfold createNew createFile at h
  rw [if_neg hslash] at h
  split_ifs at h with hthere
  · unfold exists? at hthere
    cases hfind : v.find? p with
    | ok e => exact isPassable_of_find? hfind
    | error e =>
      rw [hfind] at hthere
      cases hthere
  · cases hlocate : v.disk.locate v.cwd false p (Disk.steps p) with
    | ok place => exact .of_locate hlocate
    | error e =>
      rw [hlocate] at h
      have hne := locate_ne_exists v.disk v.cwd false p (Disk.steps p)
      rw [hlocate] at hne
      cases e with
      | «exists» => exact absurd rfl hne
      | _ => cases h

/-- Where a file was placed the path is passable. -/
theorem isPassable_of_placeFile {t : String} {placement : Placement} (hslash : ¬endsWithSlash p)
    (h : v.placeFile p t = (.ok placement, w)) : p.IsPassable := by
  cases placeFile_eq_iff.mp h with
  | placed _ hnew => exact isPassable_of_createNew hslash hnew

/-- Where all files were placed their paths are passable. -/
theorem isPassable_of_placeFiles {root : Path} {fs : List GeneratedFile} {report : Report}
    (h : v.placeFiles root fs = ((report, none), w)) {f : GeneratedFile} (hf : f ∈ fs)
    (hslash : ¬endsWithSlash (root.join f.path)) : (root.join f.path).IsPassable := by
  induction fs generalizing v report with
  | nil => cases hf
  | cons g fs ih =>
    cases placeFiles_eq_iff.mp h with
    | placed hplaced hrest =>
      rcases List.mem_cons.mp hf with rfl | hf
      · exact isPassable_of_placeFile hslash hplaced
      · exact ih (placeFiles_eq_iff.mpr hrest) hf

/-- Where a file was written the path is passable. -/
theorem isPassable_of_writeFile {t : String} (h : v.writeFile p t = (.ok (), w)) :
    p.IsPassable := by
  unfold writeFile at h
  split_ifs at h
  · cases h
  · cases hlocate : v.disk.locate v.cwd true p (Disk.steps p) with
    | ok place => exact .of_locate hlocate
    | error e =>
      rw [hlocate] at h
      cases h

end Volume

end AppScaffold
