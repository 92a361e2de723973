import AppScaffold.Materialize
import AppScaffold.Proofs.Disk.Below
import Mathlib.Data.List.Basic
import Mathlib.Logic.Function.Basic
import Mathlib.Tactic.Common

/-!
# Files below a directory

What is below a directory is told by its files: the directories are those that lead to files, and
there is nothing else. A file can be placed or written where no other file is in the way, and then the
files are as before but for that one.
-/

namespace AppScaffold.Volume

open Disk

/-- The path leads to a directory in which nothing is. -/
structure Vacant (w : Volume) (p : Path) (dir : Location) : Prop extends Leads w p dir where
  /-- Nothing is below the directory. -/
  empty : ∀ name names, w.disk.get? (dir ++ name :: names) = none

/-- The volume is `w` with the given files below the directory, and the directories that lead to
them. -/
structure Shows (w : Volume) (dir : Location) (files : Location → Option String) (x : Volume) :
    Prop where
  /-- Relative paths start from the same directory. -/
  cwd : x.cwd = w.cwd
  /-- Outside the directory everything is as it was. -/
  outside : ∀ loc, (∀ name names, loc ≠ dir ++ name :: names) → x.disk.get? loc = w.disk.get? loc
  /-- The files are there. -/
  file : ∀ loc t, files loc = some t → x.disk.get? (dir ++ loc) = some (.file (.text t))
  /-- The directories above them are there. -/
  parent : ∀ loc names, loc ≠ [] → names ≠ [] → files (loc ++ names) ≠ none →
    x.disk.get? (dir ++ loc) = some .dir
  /-- Nothing else is there. -/
  free : ∀ loc, loc ≠ [] → (∀ names, files (loc ++ names) = none) → x.disk.get? (dir ++ loc) = none

/-- A file can stand at the location: no other file stands above or below it. -/
structure Admits (files : Location → Option String) (loc : Location) : Prop where
  /-- No file stands where a directory is needed. -/
  above : ∀ q, q <+: loc → q ≠ loc → files q = none
  /-- No file stands below. -/
  below : ∀ names, names ≠ [] → files (loc ++ names) = none

section Look

variable {v : Volume} {p : Path} {dir : Location} {names : List String} {s : String}

/-- Where the directories are there a path leads to what is there. -/
theorem Leads.find?_of_dirs (h : Leads v p dir) (hf : Follows p (names ++ [s]))
    (hdirs : ∀ q, q <+: names → q ≠ [] → v.disk.get? (dir ++ q) = some .dir) :
    (v.disk.get? (dir ++ (names ++ [s])) = none →
      v.find? (p.extend (names ++ [s])) = .error .notFound) ∧
    ∀ e, v.disk.get? (dir ++ (names ++ [s])) = some e → (∀ target, e ≠ .link target) →
      v.find? (p.extend (names ++ [s])) = .ok e := by
  obtain ⟨-, -, hsteps⟩ := h.locate_eq hf (by simp) true
  obtain ⟨hnone, hsome⟩ := h.locate_of_dirs hf hdirs true
  refine ⟨fun hget => ?_, fun e hget hlink => ?_⟩
  · rw [find?, hsteps, hnone hget]
  · rw [find?, hsteps, hsome e hget hlink]
    simp only [hget]

/-- Where a directory is missing a path leads to nothing. -/
theorem Leads.find?_of_missing (h : Leads v p dir) (hf : Follows p (names ++ [s]))
    (hclear : Clear v dir names)
    (hmissing : ∃ q, q <+: names ∧ q ≠ [] ∧ v.disk.get? (dir ++ q) = none) :
    v.find? (p.extend (names ++ [s])) = .error .notFound := by
  obtain ⟨-, -, hsteps⟩ := h.locate_eq hf (by simp) true
  rw [find?, hsteps, h.locate_of_missing hf hclear hmissing]

end Look

namespace Shows

variable {w x y : Volume} {p : Path} {dir : Location} {files : Location → Option String}

/-- Nothing is shown below an empty directory. -/
theorem of_vacant (h : Vacant w p dir) : Shows w dir (fun _ => none) w where
  cwd := rfl
  outside _ _ := rfl
  file _ _ hsome := by cases hsome
  parent _ _ _ _ hsome := absurd rfl hsome
  free loc hne _ := by
    obtain ⟨name, names, rfl⟩ := List.exists_cons_of_ne_nil hne
    exact h.empty name names

/-- Where no file is shown there is none. -/
theorem get?_ne_file (h : Shows w dir files x) (hdir : w.disk.get? dir = some .dir) {loc : Location}
    (hloc : files loc = none) (c : Content) : x.disk.get? (dir ++ loc) ≠ some (.file c) := by
  by_cases hnil : loc = []
  · have hsame := h.outside dir fun name names heq => by simpa using congrArg List.length heq
    rw [hnil, List.append_nil, hsame, hdir]
    simp
  · by_cases hnone : ∀ names, files (loc ++ names) = none
    · rw [h.free loc hnil hnone]
      simp
    · obtain ⟨names, hnames⟩ := not_forall.mp hnone
      have hne : names ≠ [] := by
        rintro rfl
        rw [List.append_nil] at hnames
        exact hnames hloc
      rw [h.parent loc names hnil hne hnames]
      simp

/-- Volumes with the same entries show the same. -/
theorem congr (h : Shows w dir files x) (hcwd : y.cwd = x.cwd)
    (hget : ∀ loc, y.disk.get? loc = x.disk.get? loc) : Shows w dir files y where
  cwd := hcwd.trans h.cwd
  outside loc hloc := (hget loc).trans (h.outside loc hloc)
  file loc t ht := (hget _).trans (h.file loc t ht)
  parent loc names hloc hnames hsome := (hget _).trans (h.parent loc names hloc hnames hsome)
  free loc hne hnone := (hget _).trans (h.free loc hne hnone)

/-- The path still leads to the directory. -/
theorem leads (h : Shows w dir files x) (hw : Vacant w p dir) : Leads x p dir := by
  refine hw.toLeads.mono (fun loc e he => ?_) h.cwd
  rw [h.outside loc, he]
  rintro name names rfl
  rw [hw.empty] at he
  cases he

variable {names : List String} {s : String}

/-- Nothing but directories is on the way to a file. -/
theorem clear (h : Shows w dir files x) (ha : Admits files (names ++ [s])) : Clear x dir names := by
  intro q hq hne
  have hlt : q.length < (names ++ [s]).length := by
    have hle := hq.length_le
    rw [List.length_append, List.length_singleton]
    omega
  have hnone : files q = none := by
    refine ha.above q (hq.trans (List.prefix_append ..)) ?_
    rintro rfl
    omega
  by_cases hsome : ∃ rest, files (q ++ rest) ≠ none
  · obtain ⟨rest, hrest⟩ := hsome
    refine .inr (h.parent q rest hne ?_ hrest)
    rintro rfl
    rw [List.append_nil] at hrest
    exact hrest hnone
  · refine .inl (h.free q hne fun rest => ?_)
    by_contra hrest
    exact hsome ⟨rest, hrest⟩

/-- What is at the place of a file. -/
theorem get?_eq (h : Shows w dir files x) (ha : Admits files (names ++ [s])) :
    x.disk.get? (dir ++ (names ++ [s])) =
      (files (names ++ [s])).map fun t => .file (.text t) := by
  cases hfile : files (names ++ [s]) with
  | some t => rw [h.file _ t hfile, Option.map_some]
  | none =>
    rw [Option.map_none]
    refine h.free _ (by simp) fun rest => ?_
    cases rest with
    | nil => rw [List.append_nil, hfile]
    | cons r rest => exact ha.below _ (List.cons_ne_nil _ _)

/-- The directories above a file are there. -/
theorem dirs_of_file (h : Shows w dir files x) (hfile : files (names ++ [s]) ≠ none) :
    ∀ q, q <+: names → q ≠ [] → x.disk.get? (dir ++ q) = some .dir := by
  rintro q ⟨rest, rfl⟩ hne
  refine h.parent q (rest ++ [s]) hne (by simp) ?_
  rwa [← List.append_assoc]

/-- A path to a file leads to it, or nowhere if it is missing. -/
theorem find?_eq (hw : Vacant w p dir) (h : Shows w dir files x) (hf : Follows p (names ++ [s]))
    (ha : Admits files (names ++ [s])) :
    x.find? (p.extend (names ++ [s])) =
      match files (names ++ [s]) with
      | some t => .ok (.file (.text t))
      | none => .error .notFound := by
  have hleads := h.leads hw
  have hget := h.get?_eq ha
  rcases (h.clear ha).cases with hdirs | hmissing
  · obtain ⟨hnone, hsome⟩ := hleads.find?_of_dirs hf hdirs
    cases hfile : files (names ++ [s]) with
    | some t => exact hsome _ (by rw [hget, hfile, Option.map_some]) (by simp)
    | none => exact hnone (by rw [hget, hfile, Option.map_none])
  · have hfile : files (names ++ [s]) = none := by
      by_contra hfile
      obtain ⟨q, hq, hne, hnone⟩ := hmissing
      rw [h.dirs_of_file hfile q hq hne] at hnone
      cases hnone
    rw [hfile]
    exact hleads.find?_of_missing hf (h.clear ha) hmissing

/-- A file is put at the end of a way that has been paved. -/
theorem put (h : Shows w dir files x) (ha : Admits files (names ++ [s]))
    (hp : Paved x y dir names) (t : String) :
    Shows w dir (Function.update files (names ++ [s]) (some t))
      (y.set (dir ++ (names ++ [s])) (.file (.text t))) := by
  have hget := fun loc => get?_set y.disk (dir ++ (names ++ [s])) loc (.file (.text t)) (by simp)
  have hother : ∀ loc, loc ≠ names ++ [s] → dir ++ loc ≠ dir ++ (names ++ [s]) := fun loc hne heq =>
    hne (List.append_cancel_left heq)
  have hrest : ∀ loc, ¬loc <+: names → y.disk.get? (dir ++ loc) = x.disk.get? (dir ++ loc) := by
    intro loc hloc
    refine hp.rest _ fun q hq _ heq => hloc ?_
    rwa [List.append_cancel_left heq]
  refine ⟨hp.cwd.trans h.cwd, fun loc hloc => ?_, fun loc t' ht' => ?_,
    fun loc rest hne hrest' hsome => ?_, fun loc hne hnone => ?_⟩
  · obtain ⟨name, more, hcons⟩ := List.exists_cons_of_ne_nil (show names ++ [s] ≠ [] by simp)
    rw [set, hget, if_neg (by rw [hcons]; exact hloc name more), hp.rest, h.outside loc hloc]
    intro q _ hqne
    obtain ⟨name, more, rfl⟩ := List.exists_cons_of_ne_nil hqne
    exact hloc name more
  · rw [set, hget]
    by_cases hloc : loc = names ++ [s]
    · subst hloc
      rw [Function.update_self, Option.some.injEq] at ht'
      rw [if_pos rfl, ht']
    · rw [Function.update_of_ne hloc] at ht'
      rw [if_neg (hother loc hloc), hrest, h.file loc t' ht']
      intro hpref
      rw [ha.above loc (hpref.trans (List.prefix_append ..)) hloc] at ht'
      cases ht'
  · rw [set, hget, if_neg]
    · by_cases hpref : loc <+: names
      · exact hp.dirs loc hpref hne
      · rw [hrest loc hpref]
        refine h.parent loc rest hne hrest' ?_
        rwa [Function.update_of_ne] at hsome
        intro heq
        rcases List.prefix_concat_iff.mp (show loc <+: names ++ [s] from ⟨rest, heq⟩) with rfl | hmore
        · exact hrest' (List.append_cancel_left (heq.trans (List.append_nil _).symm))
        · exact hpref hmore
    · refine hother loc ?_
      rintro rfl
      rw [Function.update_of_ne (by simpa using hrest'), ha.below rest hrest'] at hsome
      exact hsome rfl
  · have hloc : ¬loc <+: names ++ [s] := by
      rintro ⟨rest, hrest'⟩
      have hsome := hnone rest
      rw [hrest', Function.update_self] at hsome
      cases hsome
    rw [set, hget, if_neg, hrest, h.free loc hne]
    · intro rest
      have hsame := hnone rest
      rwa [Function.update_of_ne] at hsame
      exact fun heq => hloc ⟨rest, heq⟩
    · exact fun hmore => hloc (hmore.trans (List.prefix_append ..))
    · refine hother loc ?_
      rintro rfl
      exact hloc List.prefix_rfl

/-- The directories above a file are made, or they are there. -/
theorem mkdirParent_eq (hw : Vacant w p dir) (h : Shows w dir files x)
    (hf : Follows p (names ++ [s])) (hne : names ≠ []) (ha : Admits files (names ++ [s])) :
    ∃ y, x.mkdirParent (p.extend (names ++ [s])) = (.ok (), y) ∧ Paved x y dir names ∧
      Leads y p dir := by
  have hleads := h.leads hw
  have hs := hf.proper s (List.mem_append_right _ (List.mem_singleton.mpr rfl))
  obtain ⟨y, hmade, hpaved⟩ := hleads.mkdirAll_extend hf.of_append hne (h.clear ha)
  have hgrown := mkdirAll_grown x (p.extend names)
  rw [hmade] at hgrown
  have hparent := hleads.trimmed.parent_extend hf.of_append.proper hs
  exact ⟨y, mkdirParent_eq_iff.mpr (.paved hparent hmade), hpaved,
    hleads.mono hgrown.within hgrown.cwd⟩

/-- When the directories above a file have been paved, the file is where it was. -/
theorem get?_of_paved (h : Shows w dir files x) (hp : Paved x y dir names)
    (ha : Admits files (names ++ [s])) :
    y.disk.get? (dir ++ (names ++ [s])) = (files (names ++ [s])).map fun t => .file (.text t) := by
  rw [hp.rest, h.get?_eq ha]
  intro q hq _ heq
  have hle := hq.length_le
  have hlength := congrArg List.length (List.append_cancel_left heq)
  rw [List.length_append, List.length_singleton] at hlength
  omega

/-- Directories that were there already need no paving. -/
theorem of_paved_file (h : Shows w dir files x) (hp : Paved x y dir names)
    (hfile : files (names ++ [s]) ≠ none) : Shows w dir files y := by
  refine h.congr hp.cwd fun loc => ?_
  by_cases hpaved : ∃ q, q <+: names ∧ q ≠ [] ∧ loc = dir ++ q
  · obtain ⟨q, hq, hne, rfl⟩ := hpaved
    rw [hp.dirs q hq hne, h.dirs_of_file hfile q hq hne]
  · exact hp.rest loc fun q hq hne heq => hpaved ⟨q, hq, hne, heq⟩

/-- A file is placed where nothing is; one that is there already stays. -/
theorem placeFile_eq (hw : Vacant w p dir) (h : Shows w dir files x)
    (hf : Follows p (names ++ [s])) (hne : names ≠ []) (ha : Admits files (names ++ [s]))
    (t : String) :
    ∃ y, x.placeFile (p.extend (names ++ [s])) t =
        (.ok (if (files (names ++ [s])).isSome then .skipped else .created), y) ∧
      Shows w dir (Function.update files (names ++ [s]) (some ((files (names ++ [s])).getD t))) y := by
  obtain ⟨y, hmade, hpaved, hleads⟩ := h.mkdirParent_eq hw hf hne ha
  have hget := h.get?_of_paved hpaved ha
  obtain ⟨hnone, hsome⟩ := hleads.find?_of_dirs hf hpaved.dirs
  rw [Volume.placeFile, hmade]
  simp only
  cases hfile : files (names ++ [s]) with
  | some t' =>
    rw [hfile, Option.map_some] at hget
    have hexists : y.exists? (p.extend (names ++ [s])) = true := by
      rw [exists?, hsome _ hget (by simp)]
      rfl
    refine ⟨y, by rw [createNew, if_pos hexists]; rfl, ?_⟩
    rw [Option.getD_some, ← hfile, Function.update_eq_self]
    exact h.of_paved_file hpaved (by rw [hfile]; simp)
  | none =>
    rw [hfile, Option.map_none] at hget
    have hexists : ¬y.exists? (p.extend (names ++ [s])) = true := by
      rw [exists?, hnone hget]
      decide
    obtain ⟨-, -, hsteps⟩ := hleads.locate_eq hf (by simp) false
    have hslash := (hleads.trimmed.extend hf.proper).endsWithSlash
    refine ⟨_, ?_, h.put ha hpaved t⟩
    rw [createNew, if_neg hexists, createFile, hslash, if_neg (by decide), hsteps,
      (hleads.locate_of_dirs hf hpaved.dirs false).1 hget]
    simp only [List.append_assoc]
    rfl

/-- A file is written in the place of an older one or anew. -/
theorem writeFile_eq (hw : Vacant w p dir) (h : Shows w dir files x)
    (hf : Follows p (names ++ [s])) (hne : names ≠ []) (ha : Admits files (names ++ [s]))
    (t : String) :
    ∃ y z, x.mkdirParent (p.extend (names ++ [s])) = (.ok (), y) ∧
      y.writeFile (p.extend (names ++ [s])) t = (.ok (), z) ∧
      Shows w dir (Function.update files (names ++ [s]) (some t)) z := by
  obtain ⟨y, hmade, hpaved, hleads⟩ := h.mkdirParent_eq hw hf hne ha
  have hget := h.get?_of_paved hpaved ha
  have hslash := (hleads.trimmed.extend hf.proper).endsWithSlash
  obtain ⟨-, -, hsteps⟩ := hleads.locate_eq hf (by simp) true
  obtain ⟨hnone, hsome⟩ := hleads.locate_of_dirs hf hpaved.dirs true
  refine ⟨y, _, hmade, ?_, h.put ha hpaved t⟩
  rw [writeFile, hslash, if_neg (by decide), hsteps]
  cases hfile : files (names ++ [s]) with
  | some t' =>
    rw [hfile, Option.map_some] at hget
    rw [hsome _ hget (by simp)]
    simp only [hget]
  | none =>
    rw [hfile, Option.map_none] at hget
    rw [hnone hget]
    simp only [List.append_assoc]

/-- What is shown can be read. -/
theorem readText_eq (hw : Vacant w p dir) (h : Shows w dir files x)
    (hf : Follows p (names ++ [s])) (ha : Admits files (names ++ [s])) :
    x.exists? (p.extend (names ++ [s])) = (files (names ++ [s])).isSome ∧
      ∀ t, files (names ++ [s]) = some t → x.readText (p.extend (names ++ [s])) = .ok t := by
  have hfind := h.find?_eq hw hf ha
  refine ⟨?_, fun t ht => ?_⟩
  · rw [exists?, hfind]
    cases files (names ++ [s]) <;> rfl
  · rw [ht] at hfind
    rw [readText, hfind]

end Shows

end AppScaffold.Volume
