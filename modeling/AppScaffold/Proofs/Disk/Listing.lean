import AppScaffold.Disk.Operations
import AppScaffold.Proofs.Disk.Nested
import AppScaffold.Proofs.Disk.Passing
import Mathlib.Data.List.Nodup

/-!
# Directories that are listed

The name of a directory that is listed leads to a directory, if it is put behind the path whose
directories were listed and the whole path is not too long. This rests on the way in which a disk keeps
its entries: each location once, under names that are not too long.
-/

namespace AppScaffold

namespace Disk

/-- The entries of a disk are kept as they should be. -/
structure IsProper (d : Disk) : Prop where
  /-- No location has two entries. -/
  distinct : (d.entries.map Prod.fst).Nodup
  /-- No name is too long. -/
  short : ∀ e ∈ d.entries, ∀ name ∈ e.1, name.utf8ByteSize ≤ nameLimit

variable {d : Disk} {links : Nat} {cur loc : Location} {xs : List Step}

/-- An entry is found at its location. -/
theorem IsProper.get?_of_mem (h : d.IsProper) {e : Entry} (hne : loc ≠ [])
    (hmem : (loc, e) ∈ d.entries) : d.get? loc = some e := by
  have hget : d.get? loc = d.entries.lookup loc := by
    cases loc with
    | nil => exact absurd rfl hne
    | cons name names => rfl
  obtain ⟨before, after, hsplit⟩ := List.append_of_mem hmem
  have hbefore : ∀ entry ∈ before, (loc != entry.1) = true := by
    have hdistinct := h.distinct
    rw [hsplit, List.map_append, List.map_cons, List.nodup_middle, List.nodup_cons] at hdistinct
    intro entry hentry
    rw [bne_iff_ne]
    rintro rfl
    exact hdistinct.1 (List.mem_append_left _ (List.mem_map.mpr ⟨entry, hentry, rfl⟩))
  rw [hget, List.lookup_eq_some_iff]
  exact ⟨before, after, hsplit, hbefore⟩

/-- A disk of directories that lie in each other is plain. -/
theorem plain_of_directories
    (h : ∀ entry ∈ d.entries, entry.2 = .dir ∧ d.get? entry.1.dropLast = some .dir) : d.Plain := by
  refine ⟨fun loc target he => ?_, nested_of_entries fun entry hentry => (h entry hentry).2⟩
  rcases eq_root_or_mem_of_get? he with ⟨-, hdir⟩ | hentry
  · cases hdir
  · cases (h _ hentry).1

/-- The children of a directory are the entries whose location is one name longer. -/
theorem mem_children_iff {name : String} {e : Entry} :
    (name, e) ∈ d.children loc ↔ (loc ++ [name], e) ∈ d.entries := by
  rw [children, List.mem_filterMap]
  constructor
  · rintro ⟨⟨place, entry⟩, hmem, hchild⟩
    dsimp only at hchild
    split at hchild
    · next last hlast =>
      split_ifs at hchild with hdir
      cases hchild
      rwa [← hdir, List.dropLast_append_getLast? _ hlast]
    · cases hchild
  · intro hmem
    exact ⟨_, hmem, by simp⟩

/-- A way into a missing entry leads to no entry. -/
theorem walk_ne_found {follow : Bool} {s : String} {rest : List Step}
    (hlimit : ¬nameLimit < s.utf8ByteSize) (hnone : d.get? (cur ++ [s]) = none) :
    d.walk follow links cur (.name s :: rest) ≠ .ok (.found loc) := by
  rw [walk.eq_def]
  simp only [if_neg hlimit, hnone]
  split <;> simp

/-- A final slash is of no account where a way leads to an entry. -/
theorem walk_of_slash (h : d.walk true links cur (xs ++ [.slash]) = .ok (.found loc)) :
    d.walk true links cur xs = .ok (.found loc) := by
  have hmore : ∀ rest : List Step, (rest ++ [Step.slash]).isEmpty = false := by simp
  fun_induction walk d true links cur xs with
  | case1 =>
    rwa [List.nil_append, walk, walk] at h
  | case2 _ _ _ ih | case3 _ _ _ ih | case4 _ _ _ ih =>
    rw [List.cons_append, walk] at h
    exact ih h
  | case9 _ _ _ _ hlimit hdir ih =>
    rw [List.cons_append, walk_dir hlimit hdir] at h
    exact ih h
  | case15 _ _ rest hlimit target hlink _ links hempty ih =>
    rw [List.cons_append, walk_link hlimit hlink, hmore, Bool.false_and, if_neg (by decide)] at h
    simp only [hempty, if_false, ← List.append_assoc] at h
    exact ih h
  | case5 _ _ _ _ hlimit =>
    rw [List.cons_append, walk.eq_def] at h
    simp only [if_pos hlimit] at h
    cases h
  | case6 _ _ _ hlimit hnone | case7 _ _ _ hlimit hnone | case8 _ _ _ _ hlimit hnone =>
    rw [List.cons_append] at h
    exact absurd h (walk_ne_found hlimit hnone)
  | case10 _ _ _ _ hlimit _ hfile | case11 _ _ _ _ hlimit _ hfile =>
    rw [List.cons_append, walk_file hlimit hfile, hmore, if_neg (by decide)] at h
    cases h
  | case12 _ _ _ _ _ _ _ hrest =>
    rw [Bool.not_true, Bool.and_false] at hrest
    cases hrest
  | case13 _ _ _ hlimit _ hlink =>
    rw [List.cons_append, walk_link hlimit hlink, hmore, Bool.false_and, if_neg (by decide)] at h
    cases h
  | case14 _ _ _ hlimit _ _ hlink =>
    rw [List.cons_append, walk_link hlimit hlink, hmore, Bool.false_and, if_neg (by decide)] at h
    cases h

/-- A path that leads to an entry leads there also without its final slash. -/
theorem walk_bareSteps_of_locate {cwd : Location} {p : Path}
    (h : d.locate cwd true p (steps p) = .ok (.found loc)) :
    d.walk true linkLimit (if p.isAbsolute then [] else cwd) (bareSteps p) = .ok (.found loc) := by
  have hp : admissible p = .ok () := (Path.IsPassable.of_locate h).admissible
  unfold locate steps at h
  rw [hp] at h
  dsimp only at h
  cases hslash : endsWithSlash p with
  | true =>
    rw [hslash, if_pos rfl] at h
    exact walk_of_slash h
  | false =>
    simp only [hslash, Bool.false_eq_true, if_false, List.append_nil] at h
    exact h

end Disk

namespace Path

variable {p : Path} {s : String}

/-- A character other than a slash is in the text of a path if it is in one of the segments. -/
theorem mem_text_iff {c : Char} (hc : c ≠ '/') :
    c ∈ p.text.toList ↔ ∃ t ∈ p.first :: p.rest, c ∈ t.toList := by
  rw [toList_text]
  simp [hc]

/-- A path with a segment behind it can be handed to the file system if the path can, the character
zero is not in the segment, and the whole is not too long. -/
theorem admissible_join_segment (hp : Disk.admissible p = .ok ()) (hs : ∀ c ∈ s.toList, c.toNat ≠ 0)
    (hshort : (p.join ⟨s, []⟩).text.utf8ByteSize < Disk.pathLimit) :
    Disk.admissible (p.join ⟨s, []⟩) = .ok () := by
  unfold Disk.admissible at hp
  split_ifs at hp with hzero hempty hlong
  obtain ⟨kept, hjoin, hrest⟩ := exists_join_eq (q := ⟨s, []⟩) hempty (by simp [isAbsolute])
  have hne : p.join ⟨s, []⟩ ≠ empty := by
    rw [hjoin]
    intro heq
    exact absurd (congrArg Path.rest heq) (List.append_ne_nil_of_right_ne_nil _ (List.cons_ne_nil _ _))
  have hchars : ∀ c ∈ (p.join ⟨s, []⟩).text.toList, c.toNat ≠ 0 := by
    intro c hc hc0
    have hslash : c ≠ '/' := by
      rintro rfl
      exact absurd hc0 (by decide)
    rw [mem_text_iff hslash, hjoin, ← List.cons_append] at hc
    obtain ⟨t, ht, hct⟩ := hc
    rcases List.mem_append.mp ht with ht | ht
    · have hsegment : t ∈ p.first :: p.rest := by
        rcases hrest with hrest | hrest
        · rwa [hrest]
        · rw [hrest, ← List.cons_append]
          exact List.mem_append_left _ ht
      have hmem : c ∈ p.text.toList := (mem_text_iff hslash).mpr ⟨t, hsegment, hct⟩
      exact hzero (List.any_eq_true.mpr ⟨c, hmem, decide_eq_true hc0⟩)
    · rw [List.mem_singleton.mp ht] at hct
      exact hs c hct hc0
  rw [Disk.admissible, if_neg (by simpa using hchars), if_neg hne, if_neg (Nat.not_le.mpr hshort)]

end Path

namespace Volume

variable {v : Volume} {p : Path} {s : String}

/-- The path of a directory is not too long. -/
theorem short_of_isDir (h : v.isDir p = true) : p.text.utf8ByteSize < Disk.pathLimit := by
  unfold isDir at h
  split at h
  · next hfind =>
    have hadmissible := (isPassable_of_find? hfind).admissible
    unfold Disk.admissible at hadmissible
    split_ifs at hadmissible with _ _ hlong
    exact Nat.lt_of_not_le hlong
  · cases h

/-- Directories are listed of a directory, and they are its entries. -/
theorem exists_of_mem_directoriesIn (h : s ∈ v.directoriesIn p) :
    ∃ loc, v.disk.locate v.cwd true p (Disk.steps p) = .ok (.found loc) ∧
      v.disk.get? loc = some .dir ∧ (loc ++ [s], .dir) ∈ v.disk.entries := by
  unfold directoriesIn at h
  split at h
  · next loc hlocate =>
    split at h
    · next hdir =>
      rw [List.mem_mergeSort, List.mem_filterMap] at h
      obtain ⟨⟨name, e⟩, hchild, hname⟩ := h
      dsimp only at hname
      split_ifs at hname with he
      cases hname
      subst he
      exact ⟨loc, hlocate, hdir, Disk.mem_children_iff.mp hchild⟩
    · cases h
  · cases h

/-- The directories in a directory are listed as they are kept, if they are kept in their order. -/
theorem directoriesIn_of_locate (loc : Location) {names : List String}
    (hlocate : v.disk.locate v.cwd true p (Disk.steps p) = .ok (.found loc))
    (hdir : v.disk.get? loc = some .dir)
    (hnames : ((v.disk.children loc).filterMap fun (name, e) =>
      if e = .dir then some name else none) = names)
    (hsorted : names.Pairwise fun a b => (!decide (b < a)) = true) : v.directoriesIn p = names := by
  unfold directoriesIn
  rw [hlocate]
  dsimp only
  rw [hdir]
  dsimp only
  rw [hnames, List.mergeSort_of_pairwise hsorted]

/-- A directory that is listed is a directory, if its path can be handed to the file system. -/
theorem isDir_join_of_mem (hd : v.disk.IsProper) (hmem : s ∈ v.directoriesIn p)
    (hs : Disk.segmentStep s = some (.name s))
    (hadmissible : Disk.admissible (p.join ⟨s, []⟩) = .ok ()) : v.isDir (p.join ⟨s, []⟩) = true := by
  obtain ⟨loc, hlocate, hdir, hentry⟩ := exists_of_mem_directoriesIn hmem
  have hchild : v.disk.get? (loc ++ [s]) = some .dir :=
    hd.get?_of_mem (List.append_ne_nil_of_right_ne_nil _ (List.cons_ne_nil _ _)) hentry
  have hshort : ¬Disk.nameLimit < s.utf8ByteSize :=
    Nat.not_lt.mpr (hd.short _ hentry s (List.mem_append_right _ List.mem_cons_self))
  have hfound : v.disk.locate v.cwd true (p.join ⟨s, []⟩) (Disk.steps (p.join ⟨s, []⟩)) =
      .ok (.found (loc ++ [s])) := by
    have hfirst : s ≠ "" := by
      rintro rfl
      cases hs
    have hlast : Disk.steps ⟨s, []⟩ = [.name s] := by
      simp [Disk.steps, Disk.bareSteps, Disk.endsWithSlash, hs]
    have hbare := Disk.walk_bareSteps_of_locate hlocate
    obtain ⟨links, hwalk⟩ := Disk.walk_append hbare hdir (List.cons_ne_nil (.name s) []) true
    rw [Disk.locate, hadmissible, Path.isAbsolute_join (Path.isAbsolute_of_first hfirst),
      Path.steps_join hfirst, hlast]
    dsimp only
    rw [hwalk, Disk.walk_dir hshort hchild, Disk.walk]
  unfold isDir find?
  rw [hfound]
  simp only [hchild]

end Volume

end AppScaffold
