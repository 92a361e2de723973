import AppScaffold.Proofs.Disk.Adding
import Mathlib.Tactic.Common

/-!
# Which files are made

A file that is reported as made was not there before, and its place holds its text afterwards. A file
that is reported as skipped has something at its place. Beside the files that are reported as made, only
directories on the way to the files are new.
-/

namespace AppScaffold.Volume

open Disk

variable {v w : Volume} {p : Path} {s : String}

/-- What comes of placing one file. -/
inductive Placed (v : Volume) (p : Path) (s : String) : Except Problem Placement → Volume → Prop where
  /-- The file was made at a free place. -/
  | created {w : Volume} (free : v.disk.get? (v.place p) = none)
    (text : w.disk.get? (v.place p) = some (.file (.text s)))
    (added : Added (fun loc e => e = .dir ∧ v.Above p loc ∨
      e = .file (.text s) ∧ loc = v.place p) v w) : Placed v p s (.ok .created) w
  /-- Something is at the place. -/
  | skipped {w : Volume} (there : ∃ e, w.disk.get? (v.place p) = some e)
    (added : Added (fun loc e => e = .dir ∧ v.Above p loc) v w) : Placed v p s (.ok .skipped) w
  /-- The file could not be made. -/
  | failed {w : Volume} (problem : Problem)
    (added : Added (fun loc e => e = .dir ∧ v.Above p loc) v w) : Placed v p s (.error problem) w

/-- A path that exists leads to an entry at the place that it spells. -/
theorem exists_of_exists? (h : v.IsPlain) (hp : v.exists? p = true) :
    ∃ e, v.disk.get? (v.place p) = some e := by
  rw [exists?] at hp
  cases hfind : v.find? p with
  | ok e => exact ⟨e, get?_of_find? h.disk.links hfind⟩
  | error e =>
    rw [hfind] at hp
    cases hp

/-- A file is made at a free place, or something is there, or the place cannot be reached. -/
theorem createFile_cases (h : v.IsPlain) (p : Path) (s : String) :
    (v.createFile p s = (.ok (), v.set (v.place p) (.file (.text s))) ∧
      v.disk.get? (v.place p) = none ∧
      Added (fun loc e => e = .file (.text s) ∧ loc = v.place p) v
        (v.set (v.place p) (.file (.text s)))) ∨
    (v.createFile p s = (.error .exists, v) ∧ ∃ e, v.disk.get? (v.place p) = some e) ∨
    ∃ e, e ≠ .exists ∧ v.createFile p s = (.error e, v) := by
  rw [createFile]
  split_ifs
  · refine .inr (.inr ⟨_, ?_, rfl⟩)
    rw [refuseSlash]
    split
    · rename_i e he
      rintro rfl
      exact locate_ne_exists _ _ _ _ _ he
    · decide
  · split
    · rename_i dir name slash hlocate
      have hplace : dir ++ [name] = v.place p := (h.location_of_locate hlocate).1
      have hfree := get?_of_locate_free hlocate
      have hadded : Added (fun loc e => e = .file (.text s) ∧ loc = v.place p) v
          (v.set (dir ++ [name]) (.file (.text s))) := added_set h hlocate (by simp) ⟨rfl, rfl⟩
      rw [hplace] at hfree hadded ⊢
      exact .inl ⟨rfl, hfree, hadded⟩
    · rename_i loc hlocate
      obtain ⟨hplace, hthere⟩ := h.location_of_locate hlocate
      obtain rfl : loc = v.place p := hplace
      exact .inr (.inl ⟨rfl, hthere⟩)
    · rename_i e hlocate
      refine .inr (.inr ⟨e, ?_, rfl⟩)
      rintro rfl
      exact locate_ne_exists _ _ _ _ _ hlocate

/-- What comes of placing one file when the directories above it are there. -/
theorem createNew_cases (h : v.IsPlain) (p : Path) (s : String) :
    (v.createNew p s = (.ok .created, v.set (v.place p) (.file (.text s))) ∧
      v.disk.get? (v.place p) = none ∧
      Added (fun loc e => e = .file (.text s) ∧ loc = v.place p) v
        (v.set (v.place p) (.file (.text s)))) ∨
    (v.createNew p s = (.ok .skipped, v) ∧ ∃ e, v.disk.get? (v.place p) = some e) ∨
    ∃ e, v.createNew p s = (.error e, v) := by
  rw [createNew]
  split_ifs with hp
  · exact .inr (.inl ⟨rfl, exists_of_exists? h hp⟩)
  · rcases createFile_cases h p s with ⟨hcreate, hmade⟩ | ⟨hcreate, hthere⟩ | ⟨e, hne, hcreate⟩
    · rw [hcreate]
      exact .inl ⟨rfl, hmade⟩
    · rw [hcreate]
      exact .inr (.inl ⟨rfl, hthere⟩)
    · rw [hcreate]
      exact .inr (.inr ⟨e, by cases e <;> first | rfl | exact absurd rfl hne⟩)

/-- A file that is placed is made at a free place, or something is there, or it cannot be made. -/
theorem placeFile_placed (h : v.IsPlain) (p : Path) (s : String) :
    Placed v p s (v.placeFile p s).1 (v.placeFile p s).2 := by
  have hparent := mkdirParent_added h p
  rcases hmade : v.mkdirParent p with ⟨⟨dir, e⟩ | _, u⟩
  · rw [placeFile_eq_iff.mpr (.unpaved hmade)]
    rw [hmade] at hparent
    exact .failed _ hparent
  · rw [hmade] at hparent
    have hplace : u.place p = v.place p := hparent.place_eq p
    rcases createNew_cases hparent.plain p s with ⟨hnew, hfree, hadded⟩ | ⟨hnew, hthere⟩ | ⟨e, hnew⟩
    · rw [placeFile_eq_iff.mpr (.placed hmade hnew)]
      rw [hplace] at hfree hadded ⊢
      have hne : v.place p ≠ [] := by
        intro hroot
        rw [hroot] at hfree
        cases hfree
      refine .created (hparent.get?_eq_none hfree) ?_
        ((hparent.mono fun _ _ => .inl).trans (hadded.mono fun _ _ => .inr))
      rw [set, get?_set _ _ _ _ hne, if_pos rfl]
    · rw [placeFile_eq_iff.mpr (.placed hmade hnew)]
      rw [hplace] at hthere
      exact .skipped hthere hparent
    · rw [placeFile_eq_iff.mpr (.unmade hmade hnew)]
      exact .failed _ hparent

/-- Whatever comes of placing a file, nothing but the file and directories on the way to it is new. -/
theorem Placed.added {result : Except Problem Placement} (h : Placed v p s result w) :
    Added (fun loc e => e = .dir ∧ v.Above p loc ∨ e = .file (.text s) ∧ loc = v.place p) v w := by
  cases h with
  | created _ _ hadded => exact hadded
  | skipped _ hadded | failed _ hadded => exact hadded.mono fun _ _ => .inl

/-- What comes of placing files below a directory: a report of all that has been done. -/
structure Filed (v : Volume) (root : Path) (files : List GeneratedFile) (report : Report)
    (w : Volume) : Prop where
  /-- New are the files that are reported as made, and directories on the way to the files. -/
  added : Added (fun loc e => e = .dir ∧ (∃ f ∈ files, v.Above (root.join f.path) loc) ∨
    ∃ p ∈ report.created, v.place p = loc) v w
  /-- A file that is reported as made was not there, and holds its text. -/
  created : ∀ p ∈ report.created, ∃ f ∈ files, p = root.join f.path ∧
    v.disk.get? (v.place p) = none ∧ w.disk.get? (v.place p) = some (.file (.text f.content))
  /-- At the place of a file that is reported as skipped there is something. -/
  skipped : ∀ p ∈ report.skipped, ∃ f ∈ files, p = root.join f.path ∧
    ∃ e, w.disk.get? (v.place p) = some e

/-- One more file at the front of those that are placed. -/
theorem Filed.precede {root : Path} {f : GeneratedFile} {files : List GeneratedFile} {report : Report}
    {x : Volume} {placement : Placement}
    (hplaced : Placed v (root.join f.path) f.content (.ok placement) w)
    (hrest : Filed w root files report x) :
    Filed v root (f :: files) (report.precede (root.join f.path) placement) x := by
  have hgrown : Grown v w := hplaced.added.toGrown
  -- the report on the later files, as seen from the volume before the first one
  have hcreated : ∀ p ∈ report.created, ∃ g ∈ f :: files, p = root.join g.path ∧
      v.disk.get? (v.place p) = none ∧
        x.disk.get? (v.place p) = some (.file (.text g.content)) := fun p hp => by
    obtain ⟨g, hg, hpath, hfree, htext⟩ := hrest.created p hp
    rw [hgrown.place_eq] at hfree htext
    exact ⟨g, List.mem_cons_of_mem _ hg, hpath, hgrown.get?_eq_none hfree, htext⟩
  have hskipped : ∀ p ∈ report.skipped, ∃ g ∈ f :: files, p = root.join g.path ∧
      ∃ e, x.disk.get? (v.place p) = some e := fun p hp => by
    obtain ⟨g, hg, hpath, hthere⟩ := hrest.skipped p hp
    rw [hgrown.place_eq] at hthere
    exact ⟨g, List.mem_cons_of_mem _ hg, hpath, hthere⟩
  have hadded : Added (fun loc e => e = .dir ∧ (∃ g ∈ f :: files, v.Above (root.join g.path) loc) ∨
      ∃ p ∈ report.created, v.place p = loc) w x := by
    refine hrest.added.mono fun loc e hnew => hnew.imp ?_ ?_
    · rintro ⟨he, g, hg, habove⟩
      exact ⟨he, g, List.mem_cons_of_mem _ hg, hgrown.above_iff.mp habove⟩
    · rintro ⟨p, hp, hloc⟩
      exact ⟨p, hp, by rw [← hloc, hgrown.place_eq]⟩
  cases hplaced with
  | created hfree htext hfirst =>
    refine ⟨(hfirst.mono ?_).trans (hadded.mono ?_), fun p hp => ?_, hskipped⟩
    · rintro loc e (⟨he, habove⟩ | ⟨-, hloc⟩)
      · exact .inl ⟨he, f, List.mem_cons_self, habove⟩
      · exact .inr ⟨_, List.mem_cons_self, hloc.symm⟩
    · rintro loc e (hdir | ⟨p, hp, hloc⟩)
      · exact .inl hdir
      · exact .inr ⟨p, List.mem_cons_of_mem _ hp, hloc⟩
    · rcases List.mem_cons.mp hp with rfl | hp
      · exact ⟨f, List.mem_cons_self, rfl, hfree, hrest.added.within _ _ htext⟩
      · exact hcreated p hp
  | skipped hthere hfirst =>
    refine ⟨(hfirst.mono ?_).trans hadded, hcreated, fun p hp => ?_⟩
    · rintro loc e ⟨he, habove⟩
      exact .inl ⟨he, f, List.mem_cons_self, habove⟩
    · rcases List.mem_cons.mp hp with rfl | hp
      · obtain ⟨e, he⟩ := hthere
        exact ⟨f, List.mem_cons_self, rfl, e, hrest.added.within _ _ he⟩
      · exact hskipped p hp

/-- The report on files that are placed is right. -/
theorem placeFiles_filed (h : v.IsPlain) (root : Path) (files : List GeneratedFile) :
    Filed v root files (v.placeFiles root files).1.1 (v.placeFiles root files).2 := by
  have hresult := v.placeFiles_placesOf root files
  generalize v.placeFiles root files = result at hresult ⊢
  induction hresult with
  | done =>
    exact ⟨.refl h, fun _ hp => absurd hp List.not_mem_nil, fun _ hp => absurd hp List.not_mem_nil⟩
  | @stopped _ _ f _ _ hfile =>
    have hplaced := placeFile_placed h (root.join f.path) f.content
    rw [hfile] at hplaced
    cases hplaced with
    | failed _ hadded =>
      exact ⟨hadded.mono fun loc e hnew => .inl ⟨hnew.1, f, List.mem_cons_self, hnew.2⟩,
        fun _ hp => absurd hp List.not_mem_nil, fun _ hp => absurd hp List.not_mem_nil⟩
  | @placed _ _ _ f _ _ _ _ hfile _ ih =>
    have hplaced := placeFile_placed h (root.join f.path) f.content
    rw [hfile] at hplaced
    exact .precede hplaced (ih hplaced.added.plain)

namespace Filed

variable {root : Path} {files : List GeneratedFile} {report : Report}

/-- Where no file is reported as made, the making of files leaves what was there. -/
theorem unaltered (h : Filed v root files report w) {loc : Location}
    (hloc : ∀ p ∈ report.created, v.place p ≠ loc) : Unaltered v w loc := by
  refine h.added.unaltered fun e hnew => ?_
  rcases hnew with ⟨he, -⟩ | ⟨p, hp, hplace⟩
  · exact he
  · exact absurd hplace (hloc p hp)

/-- A file that is not one of those to be made was there before. -/
theorem get?_of_file (h : Filed v root files report w) {loc : Location}
    (hloc : ∀ f ∈ files, loc ≠ v.place (root.join f.path)) {c : Content}
    (hfile : w.disk.get? loc = some (.file c)) : v.disk.get? loc = some (.file c) := by
  have hunaltered : Unaltered v w loc := h.unaltered fun p hp => by
    obtain ⟨f, hf, rfl, -⟩ := h.created p hp
    exact (hloc f hf).symm
  exact hunaltered.get?_of_file hfile

/-- The report is still right when what is at the places of the files has been kept: files that were made
were not there, and at the place of a skipped one there was something, or it has come with the files. -/
theorem kept {x : Volume} (h : Filed v root files report w)
    (hkept : ∀ f ∈ files, ∀ e, w.disk.get? (v.place (root.join f.path)) = some e →
      x.disk.get? (v.place (root.join f.path)) = some e) :
    (∀ p ∈ report.created, ∃ f ∈ files, p = root.join f.path ∧
      v.disk.get? (v.place p) = none ∧ x.disk.get? (v.place p) = some (.file (.text f.content))) ∧
    ∀ p ∈ report.skipped, (∃ f ∈ files, p = root.join f.path) ∧
      ((∃ e, v.disk.get? (v.place p) = some e ∧ x.disk.get? (v.place p) = some e) ∨
        v.disk.get? (v.place p) = none ∧
          ((∃ q ∈ report.created, v.place q = v.place p) ∨
            x.disk.get? (v.place p) = some .dir ∧
              ∃ f ∈ files, v.Above (root.join f.path) (v.place p))) := by
  refine ⟨fun p hp => ?_, fun p hp => ?_⟩
  · obtain ⟨f, hf, rfl, hfree, htext⟩ := h.created p hp
    exact ⟨f, hf, rfl, hfree, hkept f hf _ htext⟩
  · obtain ⟨f, hf, rfl, e, he⟩ := h.skipped p hp
    refine ⟨⟨f, hf, rfl⟩, ?_⟩
    cases hbefore : v.disk.get? (v.place (root.join f.path)) with
    | some e' =>
      exact .inl ⟨e', rfl, hkept f hf _ (h.added.within _ _ hbefore)⟩
    | none =>
      refine .inr ⟨rfl, ?_⟩
      rcases h.added.only _ _ hbefore he with ⟨rfl, habove⟩ | hmade
      · exact .inr ⟨hkept f hf _ he, habove⟩
      · exact .inl hmade

end Filed

end AppScaffold.Volume
