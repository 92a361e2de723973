import AppScaffold.Materialize
import AppScaffold.Proofs.Disk.Walking
import Mathlib.Data.List.Basic
import Mathlib.Tactic.Common

/-!
# Making directories and files

Directories and new files are made only at free names. Whatever was on the disk before is still there
afterwards, unchanged, also where the work ends with a failure.

A directory is made at once if those above it are there, and else after them. A file is placed in two
steps, of which each may fail: the directories above it are made, and then the file itself, unless
something is there. Files are placed one after the other, up to the first that cannot be placed.
`ChainOf`, `ParentOf`, `PlaceOf` and `PlacesOf` list what may come of this, and what holds of all such
work is shown by their cases.
-/

namespace AppScaffold.Volume

open Disk

section Courses

variable {v : Volume} {root p : Path} {s : String}

/-- What may come of making the directory at the head of a chain. -/
inductive ChainOf (v : Volume) : List Path → Except Fault Unit × Volume → Prop
  /-- No directory is left in which it could be made. -/
  | nowhere : ChainOf v [] (.error .notFound, v)
  /-- The empty path is always there. -/
  | empty (parents : List Path) : ChainOf v (Path.empty :: parents) (.ok (), v)
  /-- It is made at once. -/
  | made {w : Volume} {p : Path} {parents : List Path} (hp : p ≠ Path.empty)
      (hmade : v.mkdir p = (.ok (), w)) : ChainOf v (p :: parents) (.ok (), w)
  /-- It cannot be made, because it is there. -/
  | there {w : Volume} {p : Path} {parents : List Path} {e : Fault} (hp : p ≠ Path.empty)
      (hmade : v.mkdir p = (.error e, w)) (he : e ≠ .notFound) (hdir : v.isDir p = true) :
      ChainOf v (p :: parents) (.ok (), v)
  /-- It cannot be made, and more directories would not help. -/
  | barred {w : Volume} {p : Path} {parents : List Path} {e : Fault} (hp : p ≠ Path.empty)
      (hmade : v.mkdir p = (.error e, w)) (he : e ≠ .notFound) (hdir : v.isDir p = false) :
      ChainOf v (p :: parents) (.error e, v)
  /-- The directories above it cannot be made. -/
  | unpaved {u w : Volume} {p : Path} {parents : List Path} {e : Fault} (hp : p ≠ Path.empty)
      (hmade : v.mkdir p = (.error .notFound, u)) (hparents : ChainOf v parents (.error e, w)) :
      ChainOf v (p :: parents) (.error e, w)
  /-- It is made after the directories above it. -/
  | madeAfter {u w x : Volume} {p : Path} {parents : List Path} (hp : p ≠ Path.empty)
      (hmade : v.mkdir p = (.error .notFound, u)) (hparents : ChainOf v parents (.ok (), w))
      (hagain : w.mkdir p = (.ok (), x)) : ChainOf v (p :: parents) (.ok (), x)
  /-- It is there after the directories above it have been made. -/
  | thereAfter {u w x : Volume} {p : Path} {parents : List Path} {e : Fault} (hp : p ≠ Path.empty)
      (hmade : v.mkdir p = (.error .notFound, u)) (hparents : ChainOf v parents (.ok (), w))
      (hagain : w.mkdir p = (.error e, x)) (hdir : w.isDir p = true) :
      ChainOf v (p :: parents) (.ok (), w)
  /-- It cannot be made after the directories above it. -/
  | barredAfter {u w x : Volume} {p : Path} {parents : List Path} {e : Fault} (hp : p ≠ Path.empty)
      (hmade : v.mkdir p = (.error .notFound, u)) (hparents : ChainOf v parents (.ok (), w))
      (hagain : w.mkdir p = (.error e, x)) (hdir : w.isDir p = false) :
      ChainOf v (p :: parents) (.error e, w)

/-- What may come of making the directory above a path. -/
inductive ParentOf (v : Volume) (p : Path) : Except (Path × Fault) Unit × Volume → Prop
  /-- There is none. -/
  | top (hparent : p.parent = none) : ParentOf v p (.ok (), v)
  /-- It is there or has been made. -/
  | paved {dir : Path} {w : Volume} (hparent : p.parent = some dir)
      (hall : v.mkdirAll dir = (.ok (), w)) : ParentOf v p (.ok (), w)
  /-- It cannot be made. -/
  | unpaved {dir : Path} {e : Fault} {w : Volume} (hparent : p.parent = some dir)
      (hall : v.mkdirAll dir = (.error e, w)) : ParentOf v p (.error (dir, e), w)

/-- What may come of placing a file. -/
inductive PlaceOf (v : Volume) (p : Path) (s : String) : Except Problem Placement × Volume → Prop
  /-- One of the directories above it cannot be made. -/
  | unpaved {dir : Path} {e : Fault} {w : Volume} (hmade : v.mkdirParent p = (.error (dir, e), w)) :
      PlaceOf v p s (.error (.directoryCreationFailed dir e), w)
  /-- The directories are there, but the file cannot be made. -/
  | unmade {e : Fault} {u w : Volume} (hmade : v.mkdirParent p = (.ok (), u))
      (hnew : u.createNew p s = (.error e, w)) : PlaceOf v p s (.error (.writeFailed p e), w)
  /-- The file is made, or it is skipped. -/
  | placed {placement : Placement} {u w : Volume} (hmade : v.mkdirParent p = (.ok (), u))
      (hnew : u.createNew p s = (.ok placement, w)) : PlaceOf v p s (.ok placement, w)

/-- What may come of placing files below a directory. -/
inductive PlacesOf (root : Path) :
    Volume → List GeneratedFile → (Report × Option Problem) × Volume → Prop
  /-- Nothing is left to be done. -/
  | done (v : Volume) : PlacesOf root v [] (({}, none), v)
  /-- The first file cannot be placed, and the work stops. -/
  | stopped {v w : Volume} {f : GeneratedFile} {files : List GeneratedFile} {e : Problem}
      (hfile : v.placeFile (root.join f.path) f.content = (.error e, w)) :
      PlacesOf root v (f :: files) (({}, some e), w)
  /-- The first file is placed, and the others come after it. -/
  | placed {v w x : Volume} {f : GeneratedFile} {files : List GeneratedFile} {placement : Placement}
      {report : Report} {problem : Option Problem}
      (hfile : v.placeFile (root.join f.path) f.content = (.ok placement, w))
      (hrest : PlacesOf root w files ((report, problem), x)) :
      PlacesOf root v (f :: files) ((report.precede (root.join f.path) placement, problem), x)

/-- Making a directory with those above it comes to one of these. -/
theorem mkdirChain_chainOf (v : Volume) (chain : List Path) : ChainOf v chain (v.mkdirChain chain) := by
  induction chain with
  | nil => exact .nowhere
  | cons p parents ih =>
    unfold mkdirChain
    by_cases hp : p = Path.empty
    · rw [if_pos hp, hp]
      exact .empty parents
    · rw [if_neg hp]
      split
      · next w hmade => exact .made hp hmade
      · next u hmade =>
        split
        · next e w hparents =>
          rw [hparents] at ih
          exact .unpaved hp hmade ih
        · next w hparents =>
          rw [hparents] at ih
          split
          · next x hagain => exact .madeAfter hp hmade ih hagain
          · next e x hagain =>
            split_ifs with hdir
            · exact .thereAfter hp hmade ih hagain hdir
            · exact .barredAfter hp hmade ih hagain (Bool.eq_false_iff.mpr hdir)
      · next e u he hmade =>
        split_ifs with hdir
        · exact .there hp hmade he hdir
        · exact .barred hp hmade he (Bool.eq_false_iff.mpr hdir)

/-- Only one of these comes of making a directory with those above it. -/
theorem mkdirChain_eq_iff {chain : List Path} {result : Except Fault Unit × Volume} :
    v.mkdirChain chain = result ↔ ChainOf v chain result := by
  refine ⟨fun h => h ▸ v.mkdirChain_chainOf chain, fun h => ?_⟩
  induction h with
  | nowhere => rfl
  | empty => rw [mkdirChain, if_pos rfl]
  | made hp hmade => simp only [mkdirChain, if_neg hp, hmade]
  | @there _ _ _ e hp hmade he hdir =>
    cases e with
    | notFound => exact absurd rfl he
    | _ => simp only [mkdirChain, if_neg hp, hmade, if_pos hdir]
  | @barred _ _ _ e hp hmade he hdir =>
    cases e with
    | notFound => exact absurd rfl he
    | _ => simp [mkdirChain, if_neg hp, hmade, hdir]
  | unpaved hp hmade _ ih => simp only [mkdirChain, if_neg hp, hmade, ih]
  | madeAfter hp hmade _ hagain ih => simp only [mkdirChain, if_neg hp, hmade, ih, hagain]
  | thereAfter hp hmade _ hagain hdir ih =>
    simp only [mkdirChain, if_neg hp, hmade, ih, hagain, if_pos hdir]
  | barredAfter hp hmade _ hagain hdir ih =>
    simp [mkdirChain, if_neg hp, hmade, ih, hagain, hdir]

/-- Making the directory above a path comes to one of these. -/
theorem mkdirParent_parentOf (v : Volume) (p : Path) : v.ParentOf p (v.mkdirParent p) := by
  unfold mkdirParent
  split
  · next hparent => exact .top hparent
  · next dir hparent =>
    rcases hall : v.mkdirAll dir with ⟨_ | _, w⟩
    · exact .unpaved hparent hall
    · exact .paved hparent hall

/-- Only one of these comes of making the directory above a path. -/
theorem mkdirParent_eq_iff {result : Except (Path × Fault) Unit × Volume} :
    v.mkdirParent p = result ↔ v.ParentOf p result := by
  refine ⟨fun h => h ▸ v.mkdirParent_parentOf p, fun h => ?_⟩
  unfold mkdirParent
  cases h with
  | top hparent => rw [hparent]
  | paved hparent hall => simp only [hparent, hall]
  | unpaved hparent hall => simp only [hparent, hall]

/-- Placing a file comes to one of these. -/
theorem placeFile_placeOf (v : Volume) (p : Path) (s : String) : v.PlaceOf p s (v.placeFile p s) := by
  unfold placeFile
  rcases hmade : v.mkdirParent p with ⟨⟨dir, e⟩ | _, u⟩
  · exact .unpaved hmade
  · dsimp only
    rcases hnew : u.createNew p s with ⟨_ | _, w⟩
    · exact .unmade hmade hnew
    · exact .placed hmade hnew

/-- Only one of these comes of placing a file. -/
theorem placeFile_eq_iff {result : Except Problem Placement × Volume} :
    v.placeFile p s = result ↔ v.PlaceOf p s result := by
  refine ⟨fun h => h ▸ v.placeFile_placeOf p s, fun h => ?_⟩
  unfold placeFile
  cases h with
  | unpaved hmade => rw [hmade]
  | unmade hmade hnew => simp only [hmade, hnew]
  | placed hmade hnew => simp only [hmade, hnew]

/-- Placing files comes to one of these. -/
theorem placeFiles_placesOf (v : Volume) (root : Path) (files : List GeneratedFile) :
    PlacesOf root v files (v.placeFiles root files) := by
  induction files generalizing v with
  | nil => exact .done v
  | cons f files ih =>
    unfold placeFiles
    rcases hfile : v.placeFile (root.join f.path) f.content with ⟨_ | _, w⟩
    · exact .stopped hfile
    · exact .placed hfile (ih w)

/-- Only one of these comes of placing files. -/
theorem placeFiles_eq_iff {files : List GeneratedFile}
    {result : (Report × Option Problem) × Volume} :
    v.placeFiles root files = result ↔ PlacesOf root v files result := by
  refine ⟨fun h => h ▸ v.placeFiles_placesOf root files, fun h => ?_⟩
  induction h with
  | done => rfl
  | stopped hfile => rw [placeFiles, hfile]
  | placed hfile _ ih => simp only [placeFiles, hfile, ih]

end Courses

/-- One volume has come from another by adding entries that are no links. -/
structure Grown (v w : Volume) : Prop where
  /-- Nothing has been changed or taken away. -/
  within : Within v.disk w.disk
  /-- No links have been added. -/
  links : v.disk.LinkFree → w.disk.LinkFree
  /-- Relative paths start from the same directory. -/
  cwd : w.cwd = v.cwd

namespace Grown

/-- Nothing has been added. -/
theorem refl (v : Volume) : Grown v v := ⟨.refl _, id, rfl⟩

/-- Entries have been added twice. -/
theorem trans {u v w : Volume} (h : Grown u v) (h' : Grown v w) : Grown u w :=
  ⟨h.within.trans h'.within, fun hu => h'.links (h.links hu), h'.cwd.trans h.cwd⟩

end Grown

/-- An entry at a free name has been added. -/
theorem grown_set {v : Volume} {loc : Location} (hfree : v.disk.get? loc = none) {e : Entry}
    (he : ∀ target, e ≠ .link target) : Grown v (v.set loc e) := by
  refine ⟨within_set hfree e, fun hv => hv.set ?_ he, rfl⟩
  rintro rfl
  cases hfree

/-- Where a path ends at a free name, nothing is there. -/
theorem get?_of_locate_free {d : Disk} {cwd dir : Location} {follow : Bool} {p : Path}
    {todo : List Step} {name : String} {slash : Bool}
    (h : d.locate cwd follow p todo = .ok (.free dir name slash)) : d.get? (dir ++ [name]) = none := by
  rw [locate] at h
  split at h
  · cases h
  · exact get?_of_walk_free h

/-- A relation between volumes that holds as soon as entries, none of them a link, are set one after the
other at free names where paths end. -/
structure Additive (R : Volume → Volume → Prop) : Prop where
  /-- It holds where nothing is set. -/
  refl : ∀ v, R v v
  /-- It holds of two steps if it holds of each. -/
  trans : ∀ {u v w}, R u v → R v w → R u w
  /-- It holds where one entry is set. -/
  set : ∀ {v : Volume} {follow : Bool} {p : Path} {todo : List Step} {dir : Location} {name : String}
    {slash : Bool} {e : Entry}, v.disk.locate v.cwd follow p todo = .ok (.free dir name slash) →
      (∀ target, e ≠ .link target) → R v (v.set (dir ++ [name]) e)

namespace Additive

variable {R : Volume → Volume → Prop}

/-- Making a directory is additive. -/
theorem mkdir (h : Additive R) (v : Volume) (p : Path) : R v (v.mkdir p).2 := by
  rw [Volume.mkdir]
  split
  · exact h.set ‹_› nofun
  · exact h.refl v
  · exact h.refl v

/-- Making a chain of directories is additive. -/
theorem mkdirChain (h : Additive R) (v : Volume) (chain : List Path) :
    R v (v.mkdirChain chain).2 := by
  have hresult := v.mkdirChain_chainOf chain
  generalize v.mkdirChain chain = result at hresult ⊢
  induction hresult with
  | nowhere | empty | there | barred => exact h.refl _
  | @made _ p _ _ hmade =>
    have hfirst := h.mkdir v p
    rwa [hmade] at hfirst
  | unpaved _ _ _ ih | thereAfter _ _ _ _ _ ih | barredAfter _ _ _ _ _ ih => exact ih
  | @madeAfter _ w _ p _ _ _ _ hagain ih =>
    have hlast := h.mkdir w p
    rw [hagain] at hlast
    exact h.trans ih hlast

/-- Making the directories above a path is additive. -/
theorem mkdirParent (h : Additive R) (v : Volume) (p : Path) : R v (v.mkdirParent p).2 := by
  have hresult := v.mkdirParent_parentOf p
  generalize v.mkdirParent p = result at hresult ⊢
  cases hresult with
  | top => exact h.refl v
  | @paved dir _ _ hall | @unpaved dir _ _ _ hall =>
    have hmade : R v (v.mkdirAll dir).2 := h.mkdirChain v _
    rwa [hall] at hmade

/-- Making a file is additive. -/
theorem createFile (h : Additive R) (v : Volume) (p : Path) (s : String) :
    R v (v.createFile p s).2 := by
  rw [Volume.createFile]
  split_ifs
  · exact h.refl v
  · split
    · exact h.set ‹_› nofun
    · exact h.refl v
    · exact h.refl v

/-- Making a file where nothing is, is additive. -/
theorem createNew (h : Additive R) (v : Volume) (p : Path) (s : String) :
    R v (v.createNew p s).2 := by
  have hcreate := h.createFile v p s
  rw [Volume.createNew]
  split_ifs
  · exact h.refl v
  · split
    all_goals
      rename_i w hmade
      rw [hmade] at hcreate
      exact hcreate

/-- Placing a file is additive. -/
theorem placeFile (h : Additive R) (v : Volume) (p : Path) (s : String) :
    R v (v.placeFile p s).2 := by
  have hparent := h.mkdirParent v p
  have hresult := v.placeFile_placeOf p s
  generalize v.placeFile p s = result at hresult ⊢
  cases hresult with
  | unpaved hmade =>
    rw [hmade] at hparent
    exact hparent
  | @unmade _ u _ hmade hnew | @placed _ u _ hmade hnew =>
    have hfile := h.createNew u p s
    rw [hmade] at hparent
    rw [hnew] at hfile
    exact h.trans hparent hfile

/-- Placing files is additive. -/
theorem placeFiles (h : Additive R) (v : Volume) (root : Path) (files : List GeneratedFile) :
    R v (v.placeFiles root files).2 := by
  have hresult := v.placeFiles_placesOf root files
  generalize v.placeFiles root files = result at hresult ⊢
  induction hresult with
  | done v => exact h.refl v
  | @stopped v _ f _ _ hplaced =>
    have hfile := h.placeFile v (root.join f.path) f.content
    rwa [hplaced] at hfile
  | @placed v _ _ f _ _ _ _ hplaced _ ih =>
    have hfile := h.placeFile v (root.join f.path) f.content
    rw [hplaced] at hfile
    exact h.trans hfile ih

end Additive

/-- Volumes grow by such entries. -/
theorem additive_grown : Additive Grown where
  refl := .refl
  trans := .trans
  set hlocate := grown_set (get?_of_locate_free hlocate)

/-- Making a directory and those above it adds at most those. -/
theorem mkdirAll_grown (v : Volume) (p : Path) : Grown v (v.mkdirAll p).2 :=
  additive_grown.mkdirChain v _

/-- Making the directories above a path adds at most those. -/
theorem mkdirParent_grown (v : Volume) (p : Path) : Grown v (v.mkdirParent p).2 :=
  additive_grown.mkdirParent v p

/-- Placing files adds at most those and the directories above them. -/
theorem placeFiles_grown (v : Volume) (root : Path) (files : List GeneratedFile) :
    Grown v (v.placeFiles root files).2 := additive_grown.placeFiles v root files

end AppScaffold.Volume
