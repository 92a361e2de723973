import AppScaffold.Proofs.Disk.Lasting
import AppScaffold.Proofs.Project.Outcomes
import Mathlib.Tactic.Common

/-!
# Files that are written again

Whether a file can be written at a path does not depend on what is written. Where one has been written it
can be read, the directories are still there, and it can be written again. Where none could be written,
none can be written then either. There may be links on the way.
-/

namespace AppScaffold

open Disk

/-- A way that ends with a slash ends in a directory. -/
theorem Disk.Nested.get?_of_walk_slash {d : Disk} (hd : d.Nested) {follow : Bool} {links : Nat}
    {cur loc : Location} {todo : List Step} (hcur : d.get? cur = some .dir)
    (hslash : todo.getLast? = some .slash) (h : d.walk follow links cur todo = .ok (.found loc)) :
    d.get? loc = some .dir := by
  fun_induction walk d follow links cur todo with
  | case1 => cases hslash
  | case2 _ _ rest ih | case3 _ _ rest ih =>
    cases rest with
    | nil =>
      rw [walk] at h
      cases h
      exact hcur
    | cons step rest => exact ih hcur (by simpa using hslash) h
  | case4 _ _ rest ih =>
    cases rest with
    | nil => cases hslash
    | cons step rest => exact ih (hd.get?_dropLast hcur) (by simpa using hslash) h
  | case9 _ _ _ rest _ hdir ih =>
    cases rest with
    | nil => cases hslash
    | cons step rest => exact ih hdir (by simpa using hslash) h
  | case10 _ _ _ _ _ _ _ hrest =>
    rw [List.isEmpty_iff.mp hrest] at hslash
    cases hslash
  | case12 _ _ _ _ _ _ _ hrest =>
    rw [Bool.and_eq_true] at hrest
    rw [List.isEmpty_iff.mp hrest.1] at hslash
    cases hslash
  | case15 _ _ rest _ _ _ _ _ _ ih =>
    cases rest with
    | nil => cases hslash
    | cons step rest =>
      refine ih ?_ ?_ h
      · split_ifs
        · rfl
        · exact hcur
      · rw [List.getLast?_append_of_ne_nil _ (List.cons_ne_nil _ _)]
        simpa using hslash
  | _ => cases h

namespace Volume

variable {v w : Volume} {p q : Path} {loc : Location} {c c' : Content} {t t' : String}

/-- A file that can be read is found. -/
theorem exists_found_of_readText (h : v.readText p = .ok t) :
    ∃ loc, v.disk.locate v.cwd true p (Disk.steps p) = .ok (.found loc) ∧
      v.disk.get? loc = some (.file (.text t)) := by
  unfold readText at h
  split at h
  · next hfind =>
    cases h
    unfold find? at hfind
    split at hfind
    · next loc hlocate =>
      split at hfind
      · next hentry =>
        cases hfind
        exact ⟨loc, hlocate, hentry⟩
      · cases hfind
    · cases hfind
    · cases hfind
  · cases h
  · cases h
  · cases h

/-- A path at which a file can be read does not end with a slash. -/
theorem not_endsWithSlash_of_readText (hv : v.IsNested) (h : v.readText p = .ok t) :
    ¬endsWithSlash p = true := by
  intro hslash
  obtain ⟨loc, hlocate, hfile⟩ := exists_found_of_readText h
  rw [locate_eq_walk (admissible_of_locate hlocate)] at hlocate
  have hlast : (Disk.steps p).getLast? = some .slash := by
    rw [Disk.steps, hslash, if_pos rfl, List.getLast?_concat]
  rw [hv.disk.get?_of_walk_slash (hv.get?_start p) hlast hlocate] at hfile
  cases hfile

/-- The directories above a file that can be read are there. -/
theorem mkdirParent_of_readText (hv : v.IsNested) (h : v.readText p = .ok t) :
    v.mkdirParent p = (.ok (), v) := by
  obtain ⟨loc, hlocate, -⟩ := exists_found_of_readText h
  cases hparent : p.parent with
  | none => exact mkdirParent_eq_iff.mpr (.top hparent)
  | some q =>
    have hdir : q = Path.empty ∨ v.isDir q = true := by
      by_cases hq : q = Path.empty
      · exact .inl hq
      · exact .inr (isDir_parent hv hparent hq (by rw [mkdir_of_locate hlocate]))
    obtain ⟨parents, hchain, -⟩ := chain_eq (q.rest.length + 1) q
    refine mkdirParent_eq_iff.mpr (.paved hparent ?_)
    rw [mkdirAll, hchain, mkdirChain_of_isDir hdir]

/-- A file that can be read can be written. -/
theorem exists_writeFile_of_readText (hv : v.IsNested) (h : v.readText p = .ok t) (t' : String) :
    ∃ w, v.writeFile p t' = (.ok (), w) := by
  obtain ⟨loc, hlocate, hfile⟩ := exists_found_of_readText h
  refine ⟨v.set loc (.file (.text t')), ?_⟩
  rw [writeFile, if_neg (not_endsWithSlash_of_readText hv h), hlocate]
  simp only [hfile]

/-- Whether a file can be written does not depend on what is written. -/
theorem writeFile_uniform (v : Volume) (p : Path) :
    (∃ e, ∀ t, v.writeFile p t = (.error e, v)) ∨ ∀ t, ∃ w, v.writeFile p t = (.ok (), w) := by
  unfold writeFile
  split_ifs
  · exact .inl ⟨_, fun _ => rfl⟩
  · split
    · exact .inr fun _ => ⟨_, rfl⟩
    · exact .inl ⟨_, fun _ => rfl⟩
    · split
      · exact .inr fun _ => ⟨_, rfl⟩
      · exact .inl ⟨_, fun _ => rfl⟩
    · exact .inl ⟨_, fun _ => rfl⟩

/-- A file in the place of an older one lies in directories. -/
theorem IsNested.set_file (h : v.IsNested) (hfile : v.disk.get? loc = some (.file c)) :
    (v.set loc (.file c')).IsNested := by
  have hne : loc ≠ [] := by
    rintro rfl
    cases hfile
  have hdirs : ∀ other, (v.set loc (.file c')).disk.get? other = some .dir ↔
      v.disk.get? other = some .dir := get?_set_file_eq_dir_iff hfile
  refine ⟨fun other e he above habove hother => (hdirs above).mpr ?_, (hdirs _).mpr h.cwd⟩
  rw [Volume.set, get?_set _ _ _ _ hne] at he
  split_ifs at he with hsame
  · exact h.disk _ _ hfile above (hsame ▸ habove) (hsame ▸ hother)
  · exact h.disk _ _ he above habove hother

/-- A directory is still there when a file is written in the place of an older one. -/
theorem isDir_set_file (hfile : v.disk.get? loc = some (.file c)) (h : v.isDir q = true) :
    (v.set loc (.file c')).isDir q = true := by
  obtain ⟨dir, hlocate⟩ := locate_of_isDir h
  have hdir : v.disk.get? dir = some .dir := by
    unfold isDir find? at h
    rw [hlocate] at h
    cases hentry : v.disk.get? dir with
    | none => simp [hentry] at h
    | some e => cases e <;> simp_all
  have hlocate' : (v.set loc (.file c')).disk.locate (v.set loc (.file c')).cwd true q (Disk.steps q) =
      .ok (.found dir) := by
    have hadmissible := admissible_of_locate hlocate
    rw [locate_eq_walk hadmissible] at hlocate ⊢
    exact (walk_set_file hfile ..).trans hlocate
  rw [isDir, find?, hlocate']
  simp only [(get?_set_file_eq_dir_iff hfile dir).mpr hdir]

/-- A text is stored at a path: it can be read, and everything that was a directory still is
one. -/
structure Stores (v w : Volume) (p : Path) (t : String) : Prop where
  /-- Entries lie in directories. -/
  nested : w.IsNested
  /-- The text can be read. -/
  readText : w.readText p = .ok t
  /-- Directories stay. -/
  isDir : ∀ q, v.isDir q = true → w.isDir q = true

/-- A file that has been written is stored. -/
theorem stores_of_writeFile (hv : v.IsNested) (h : v.writeFile p t = (.ok (), w)) : Stores v w p t := by
  have hread := readText_of_writeFile h
  unfold writeFile at h
  split_ifs at h
  · cases h
  · split at h
    · next dir name hlocate =>
      cases h
      have hfree := get?_of_locate_free hlocate
      have hgrown : Grown v (v.set (dir ++ [name]) (.file (.text t))) := grown_set hfree nofun
      exact ⟨hv.set (hv.stands_of_locate hlocate) hfree, hread, fun q => hgrown.isDir⟩
    · cases h
    · split at h
      · next hfile =>
        cases h
        exact ⟨hv.set_file hfile, hread, fun q => isDir_set_file hfile⟩
      · cases h
    · cases h

/-- No file can be written at the path: the attempt fails and leaves everything as it is. -/
def Bars (v : Volume) (p : Path) : Prop :=
  ∀ patched : PatchedFile, patched.path = p → ∃ e, patched.write v = (.error e, v)

/-- Nothing can be read where no file can be written. -/
theorem Bars.readText_ne (h : v.Bars p) (hv : v.IsNested) (t : String) : v.readText p ≠ .ok t := by
  intro hread
  obtain ⟨w, hwrite⟩ := exists_writeFile_of_readText hv hread ""
  have hdone : PatchedFile.write ⟨p, "", true⟩ v = (.ok (), w) :=
    PatchedFile.write_eq_iff.mpr (.written (mkdirParent_of_readText hv hread) hwrite)
  obtain ⟨e, he⟩ := h ⟨p, "", true⟩ rfl
  cases hdone.symm.trans he

/-- Nothing can be written at a path: the directories above it cannot be made, or no text can be written
when they are there. The disk is `w` then. -/
inductive Unwritable (v : Volume) (p : Path) (w : Volume) : Prop where
  /-- The directories above it cannot be made. -/
  | unpaved {dir : Path} {e : Fault} (hmade : v.mkdirParent p = (.error (dir, e), w)) :
      Unwritable v p w
  /-- The directories are there, and no text can be written. -/
  | unwritten (hmade : v.mkdirParent p = (.ok (), w))
      (hfails : ∀ t, ∃ e, w.writeFile p t = (.error e, w)) : Unwritable v p w

/-- No patched file is written where nothing can be. -/
theorem Unwritable.write (h : v.Unwritable p w) (patched : PatchedFile) (hpath : patched.path = p) :
    ∃ e, patched.write v = (.error e, w) := by
  subst hpath
  cases h with
  | unpaved hmade => exact ⟨_, PatchedFile.write_eq_iff.mpr (.unpaved hmade)⟩
  | unwritten hmade hfails =>
    obtain ⟨e, he⟩ := hfails patched.content
    exact ⟨_, PatchedFile.write_eq_iff.mpr (.unwritten hmade he)⟩

/-- Where nothing can be written, nothing can be written afterwards. -/
theorem Unwritable.bars (hv : v.IsNested) (h : v.Unwritable p w) : w.Bars p := by
  suffices hagain : w.Unwritable p w from hagain.write
  cases h with
  | unpaved hmade =>
    obtain ⟨e', hagain, -⟩ := exists_mkdirParent_again hv hmade
    exact .unpaved hagain
  | unwritten hmade hfails => exact .unwritten (mkdirParent_again hmade (.refl w)) hfails

/-- Patched files with one path are all written, each with its text, or nothing can be written there. -/
theorem write_uniform (hv : v.IsNested) (p : Path) :
    (∀ patched : PatchedFile, patched.path = p →
      ∃ w, patched.write v = (.ok (), w) ∧ Stores v w p patched.content) ∨
    ∃ w, Grown v w ∧ w.IsNested ∧ v.Unwritable p w := by
  have hgrown := mkdirParent_grown v p
  have hnested : (v.mkdirParent p).2.IsNested := IsNested.additive.mkdirParent v p hv
  cases hmade : v.mkdirParent p with
  | mk result u =>
    rw [hmade] at hgrown hnested
    cases result with
    | error failure => exact .inr ⟨u, hgrown, hnested, .unpaved hmade⟩
    | ok =>
      rcases u.writeFile_uniform p with ⟨e, hfails⟩ | hdone
      · exact .inr ⟨u, hgrown, hnested, .unwritten hmade fun t => ⟨e, hfails t⟩⟩
      · refine .inl ?_
        rintro patched rfl
        obtain ⟨w, hw⟩ := hdone patched.content
        have hstores := stores_of_writeFile hnested hw
        exact ⟨w, PatchedFile.write_eq_iff.mpr (.written hmade hw), hstores.nested, hstores.readText,
          fun q hq => hstores.isDir q (hgrown.isDir hq)⟩

/-- A file that can be read can be replaced. -/
theorem exists_write_of_readText (hv : v.IsNested) (patched : PatchedFile)
    (h : v.readText patched.path = .ok t) :
    ∃ w, patched.write v = (.ok (), w) ∧ Stores v w patched.path patched.content := by
  obtain ⟨w, hw⟩ := exists_writeFile_of_readText hv h patched.content
  exact ⟨w, PatchedFile.write_eq_iff.mpr (.written (mkdirParent_of_readText hv h) hw),
    stores_of_writeFile hv hw⟩

end Volume

end AppScaffold
