import AppScaffold.Proofs.Disk.Blocking
import Mathlib.Data.List.Basic
import Mathlib.Tactic.Common

/-!
# Work that is done again

What has been made is there when the same work is done again right away, and what could not be made
cannot be made then either. So a second run over the files of a tree finds its directories, skips the
files that were handled, and ends at the file at which the first run ended; it changes nothing.

The problem is the same one, but for one case. The first run may have made directories before something
was in its way, as for a path that goes up again from a directory that was missing. The second run then
follows the path of the directory at once, and what is told is where this way ends.
-/

namespace AppScaffold

open Disk

namespace Volume

variable {u v w : Volume} {p q : Path} {s : String} {e : Fault}

/-- What a path leads to it still leads to when something has been added. -/
theorem Grown.find? {f : Entry} (h : Grown v w) (hp : v.find? p = .ok f) : w.find? p = .ok f := by
  unfold Volume.find? at hp ⊢
  split at hp
  · next loc hlocate =>
    split at hp
    · next g hg =>
      cases hp
      have hadmissible := admissible_of_locate hlocate
      rw [locate_eq_walk hadmissible] at hlocate
      rw [locate_eq_walk hadmissible, h.start_eq, h.within.walk_found hlocate]
      simp only [h.within _ _ hg]
    · cases hp
  · cases hp
  · cases hp

/-- A directory is still there when something has been added. -/
theorem Grown.isDir (h : Grown v w) (hp : v.isDir p = true) : w.isDir p = true := by
  unfold Volume.isDir at hp ⊢
  split at hp
  · next hfind => rw [h.find? hfind]
  · cases hp

/-- What exists still exists when something has been added. -/
theorem Grown.exists? (h : Grown v w) (hp : v.exists? p = true) : w.exists? p = true := by
  unfold Volume.exists? at hp ⊢
  cases hfind : v.find? p with
  | ok f => rw [h.find? hfind]; rfl
  | error e => rw [hfind] at hp; cases hp

/-- A directory that has been made is there. -/
theorem isDir_of_mkdir (h : v.mkdir p = (.ok (), w)) : w.isDir p = true := by
  unfold mkdir at h
  split at h
  · next dir name slash hlocate =>
    cases h
    have hadmissible := admissible_of_locate hlocate
    rw [locate_eq_walk hadmissible] at hlocate
    refine isDir_of_walk hadmissible (walk_set_of_free (walk_of_free hlocate) (.inl rfl)) ?_
    rw [set, get?_set _ _ _ _ (by simp), if_pos rfl]
  · cases h
  · cases h

/-- A directory that is there, or none at all, is all that a chain needs. -/
theorem mkdirChain_of_isDir (h : p = Path.empty ∨ v.isDir p = true) (parents : List Path) :
    v.mkdirChain (p :: parents) = (.ok (), v) := by
  by_cases hp : p = Path.empty
  · subst hp
    exact mkdirChain_eq_iff.mpr (.empty parents)
  · have hdir := h.resolve_left hp
    exact mkdirChain_eq_iff.mpr (.there hp (mkdir_of_isDir hdir) (by decide) hdir)

/-- The directory at the head of a chain that has been made is there. -/
theorem isDir_of_mkdirChain {parents : List Path} (h : v.mkdirChain (p :: parents) = (.ok (), w)) :
    p = Path.empty ∨ w.isDir p = true := by
  rcases mkdirChain_cons_result h with ⟨hp, rfl⟩ | hmade | ⟨-, u, -, hmade | ⟨rfl, hdir⟩⟩
  · exact hp
  · exact .inr (isDir_of_mkdir hmade)
  · exact .inr (isDir_of_mkdir hmade)
  · exact .inr hdir

/-- A chain of directories that has been made is not made again, also when more has been added. -/
theorem mkdirChain_again {n : ℕ} (h : v.mkdirChain (chain n p) = (.ok (), w)) (hgrown : Grown w u) :
    u.mkdirChain (chain n p) = (.ok (), u) := by
  obtain ⟨parents, hchain, -⟩ := chain_eq n p
  rw [hchain] at h ⊢
  exact mkdirChain_of_isDir ((isDir_of_mkdirChain h).imp_right hgrown.isDir) parents

/-- The fault at which a chain ends is that of its path at the end, unless something is in the way. -/
theorem mkdir_of_mkdirChain {n : ℕ} (he : e ≠ .exists)
    (h : v.mkdirChain (chain n p) = (.error e, w)) : (w.mkdir p).1 = .error e := by
  induction n using Nat.strongRecOn generalizing p with
  | ind n ih =>
    obtain ⟨parents, hchain, hnext⟩ := chain_eq n p
    rw [hchain] at h
    obtain ⟨hp, ⟨hmade, rfl⟩ | ⟨hmissing, hparents | ⟨-, hmade, -⟩⟩⟩ := mkdirChain_cons_failure h
    · rw [hmade]
    · rcases hnext with rfl | ⟨m, hm, q, hparent, rfl⟩
      · cases hparents
        rw [hmissing]
      obtain ⟨parents, hchain, -⟩ := chain_eq m q
      have hq : q ≠ Path.empty := by
        rw [hchain] at hparents
        exact (mkdirChain_cons_failure hparents).1
      have hadmissible := admissible_of_mkdir hp (.inr (by rw [hmissing]))
      exact mkdir_of_parent hadmissible hparent hq he (ih m hm hparents)
    · rw [hmade]

/-- A chain of directories that cannot be made, but not because something is in the way, cannot be made
then either, for the same reason. -/
theorem mkdirChain_again_of_ne {n : ℕ} (he : e ≠ .exists)
    (hfailed : v.mkdirChain (chain n p) = (.error e, w)) :
    w.mkdirChain (chain n p) = (.error e, w) := by
  induction n using Nat.strongRecOn generalizing p with
  | ind n ih =>
    have hlast := mkdir_of_mkdirChain he hfailed
    have hmade := mkdir_eq_of_error hlast
    have hdir := isDir_eq_false he hlast
    obtain ⟨parents, hchain, hnext⟩ := chain_eq n p
    rw [hchain] at hfailed ⊢
    by_cases hmissing : e = .notFound
    · subst hmissing
      cases mkdirChain_eq_iff.mp hfailed with
      | barred => exact hfailed
      | unpaved hp _ hparents =>
        refine mkdirChain_eq_iff.mpr (.unpaved hp hmade ?_)
        rcases hnext with rfl | ⟨m, hm, q, -, rfl⟩
        · cases hparents
          exact .nowhere
        · exact mkdirChain_eq_iff.mp (ih m hm (mkdirChain_eq_iff.mpr hparents))
      | barredAfter hp _ hparents =>
        rcases hnext with rfl | ⟨m, -, q, -, rfl⟩
        · cases hparents
        · have hagain := mkdirChain_again (mkdirChain_eq_iff.mpr hparents) (.refl w)
          exact mkdirChain_eq_iff.mpr
            (.barredAfter hp hmade (mkdirChain_eq_iff.mp hagain) hmade hdir)
    · have hp := (mkdirChain_cons_failure hfailed).1
      exact mkdirChain_eq_iff.mpr (.barred hp hmade hmissing hdir)

/-- The directories above a path that have been made are not made again. -/
theorem mkdirParent_again (h : v.mkdirParent p = (.ok (), w)) (hgrown : Grown w u) :
    u.mkdirParent p = (.ok (), u) := by
  cases mkdirParent_eq_iff.mp h with
  | top hparent => exact mkdirParent_eq_iff.mpr (.top hparent)
  | paved hparent hall =>
    exact mkdirParent_eq_iff.mpr (.paved hparent (mkdirChain_again hall hgrown))

/-- How a problem that has led from `v` to `w` comes again on `w`. It is the same problem, unless a
directory could not be made because something was in the way, and the way to it ends there now. -/
inductive Recurs (v w : Volume) : Problem → Problem → Prop where
  /-- It is the same problem. If something was in the way of a directory, the making of the directory
  comes to it again: whatever else is above the directory, the way through it leads nowhere. -/
  | same {problem : Problem}
      (reached : ∀ dir above, problem = .directoryCreationFailed dir .exists → w.Blocks above dir →
        w.faultThrough above = .notFound) : Recurs v w problem problem
  /-- Something was in the way of a directory above, after directories had been made, for the path goes
  up and led nowhere before. Now the way to the directory ends there. -/
  | through {dir above : Path} (blocks : w.Blocks above dir) (goesUp : .up ∈ bareSteps above)
      (missing : (v.mkdir above).1 = .error .notFound) (other : w.faultThrough above ≠ .notFound) :
      Recurs v w (.directoryCreationFailed dir .exists)
        (.directoryCreationFailed dir (w.faultThrough above))

/-- A problem that is none of making directories is the same again. -/
theorem Recurs.of_ne {problem : Problem}
    (h : ∀ dir, problem ≠ .directoryCreationFailed dir .exists) : Recurs v w problem problem :=
  .same fun dir _ hproblem => absurd hproblem (h dir)

/-- A directory that cannot be made with all that it needs above it cannot be made then either. -/
theorem exists_mkdirAll_again (h : v.IsNested) {dir : Path}
    (hfailed : v.mkdirAll dir = (.error e, w)) :
    ∃ e', w.mkdirAll dir = (.error e', w) ∧
      Recurs v w (.directoryCreationFailed dir e) (.directoryCreationFailed dir e') := by
  by_cases he : e ≠ .exists
  · refine ⟨e, mkdirChain_again_of_ne he hfailed, .of_ne fun dir' hproblem => he ?_⟩
    exact (Problem.directoryCreationFailed.inj hproblem).2
  obtain rfl := not_not.mp he
  rw [mkdirAll] at hfailed ⊢
  have hw : w.IsNested := by
    have hw := IsNested.additive.mkdirChain v (chain (dir.rest.length + 1) dir) h
    rwa [hfailed] at hw
  have hp : admissible dir = .ok () := by
    obtain ⟨parents, hchain, -⟩ := chain_eq (dir.rest.length + 1) dir
    rw [hchain] at hfailed
    exact admissible_of_mkdirChain hfailed
  obtain ⟨above, hmem, htaken, hdir, hmade⟩ := exists_taken h hfailed
  by_cases hreached : above = dir ∨ w.faultThrough above = .notFound
  · have hagain := mkdirChain_of_taken hw hp hmem htaken hdir hreached
    refine ⟨_, hagain, .same fun dir' above' hproblem hblocks => ?_⟩
    obtain ⟨rfl, -⟩ := Problem.directoryCreationFailed.inj hproblem
    by_contra hother
    rw [hblocks.mkdirChain_eq hw hp hother] at hagain
    exact w.faultThrough_ne_exists above' (Except.error.inj (congrArg Prod.fst hagain))
  · obtain ⟨hne, hother⟩ := not_or.mp hreached
    have hblocks : w.Blocks above dir :=
      ⟨(isAbove_of_mem_chain hmem).resolve_left hne, htaken, hdir⟩
    have hagain := hblocks.mkdirChain_eq hw hp hother (dir.rest.length + 1)
    rcases hmade with rfl | ⟨hup, hmissing⟩
    · rw [hagain] at hfailed
      exact absurd (Except.error.inj (congrArg Prod.fst hfailed)) (w.faultThrough_ne_exists above)
    · exact ⟨_, hagain, .through hblocks hup hmissing hother⟩

/-- If the directories above a path cannot be made, they cannot be made then either. -/
theorem exists_mkdirParent_again (h : v.IsNested) {dir : Path}
    (hfailed : v.mkdirParent p = (.error (dir, e), w)) :
    ∃ e', w.mkdirParent p = (.error (dir, e'), w) ∧
      Recurs v w (.directoryCreationFailed dir e) (.directoryCreationFailed dir e') := by
  cases mkdirParent_eq_iff.mp hfailed with
  | unpaved hparent hall =>
    obtain ⟨e', hagain, hrecurs⟩ := exists_mkdirAll_again h hall
    exact ⟨e', mkdirParent_eq_iff.mpr (.unpaved hparent hagain), hrecurs⟩

/-- A path without a final slash at which something is, is skipped. -/
theorem createNew_of_occupied (hslash : ¬endsWithSlash p = true) (h : v.Occupied p) :
    v.createNew p s = (.ok .skipped, v) := by
  obtain ⟨loc, hlocate⟩ := h
  rw [createNew]
  split_ifs
  · rfl
  · rw [createFile, if_neg hslash, hlocate]

/-- A file that has been made or skipped is skipped again, also when more has been added. -/
theorem createNew_again {placement : Placement} (h : v.createNew p s = (.ok placement, w))
    (hgrown : Grown w u) : u.createNew p s = (.ok .skipped, u) := by
  rcases createNew_result v p s with ⟨e, hresult⟩ | ⟨hresult, hoccupied⟩ | ⟨x, hresult, -, htext⟩
  · rw [hresult] at h
    cases h
  · rw [hresult] at h
    cases h
    by_cases hexists : v.exists? p = true
    · rw [createNew, if_pos (hgrown.exists? hexists)]
    · refine createNew_of_occupied (fun hslash => ?_) (hgrown.occupied hoccupied)
      rw [createNew_of_slash hexists hslash] at hresult
      cases hresult
  · rw [hresult] at h
    cases h
    have htext := hgrown.readText htext
    have hexists : u.exists? p = true := by
      unfold readText at htext
      split at htext
      · next hfind => rw [exists?, hfind]; rfl
      · cases htext
      · cases htext
      · cases htext
    rw [createNew, if_pos hexists]

/-- A file that has been placed is skipped again, also when more has been added. -/
theorem placeFile_again {placement : Placement} (h : v.placeFile p s = (.ok placement, w))
    (hgrown : Grown w u) : u.placeFile p s = (.ok .skipped, u) := by
  cases placeFile_eq_iff.mp h with
  | @placed _ x _ hparent hnew =>
    have hadded := additive_grown.createNew x p s
    rw [hnew] at hadded
    have hagain := mkdirParent_again hparent (hadded.trans hgrown)
    exact placeFile_eq_iff.mpr (.placed hagain (createNew_again hnew hgrown))

/-- A file that could not be placed cannot be placed then either. -/
theorem exists_placeFile_again (h : v.IsNested) {problem : Problem}
    (hfailed : v.placeFile p s = (.error problem, w)) :
    ∃ problem', w.placeFile p s = (.error problem', w) ∧ Recurs v w problem problem' := by
  cases placeFile_eq_iff.mp hfailed with
  | unpaved hparent =>
    obtain ⟨e', hagain, hrecurs⟩ := exists_mkdirParent_again h hparent
    exact ⟨_, placeFile_eq_iff.mpr (.unpaved hagain), hrecurs⟩
  | @unmade _ x _ hparent hnew =>
    obtain rfl : w = x := by
      rcases createNew_result x p s with ⟨_, hresult⟩ | ⟨hresult, -⟩ | ⟨_, hresult, -⟩
      all_goals
        rw [hresult] at hnew
        cases hnew
      rfl
    exact ⟨_, placeFile_eq_iff.mpr (.unmade (mkdirParent_again hparent (.refl w)) hnew), .of_ne nofun⟩

/-- What is true of work on the files of a tree and of the same work done again right away. -/
structure Repeats (v : Volume) (root : Path) (files : List GeneratedFile)
    (first second : (Report × Option Problem) × Volume) : Prop where
  /-- The second run leaves everything as it was. -/
  unchanged : second.2 = first.2
  /-- If the first run handled all files, the second one skips them all. -/
  complete : first.1.2 = none →
    second.1 = (⟨[], files.map fun f => root.join f.path⟩, none)
  /-- If the first run ended at a file, the second one skips those before it and ends there too. The
  problem is the one that comes again. -/
  stopped : ∀ problem, first.1.2 = some problem → ∃ done f later problem',
    files = done ++ f :: later ∧ (v.placeFiles root done).1 = (first.1.1, none) ∧
    (v.placeFiles root done).2.Fails (root.join f.path) f.content problem ∧
    second.1 = (⟨[], done.map fun f => root.join f.path⟩, some problem') ∧
    first.2.Fails (root.join f.path) f.content problem' ∧
    Recurs (v.placeFiles root done).2 first.2 problem problem'

/-- Work on files that is done again right away. -/
theorem repeats_placeFiles (h : v.IsNested) (root : Path) (files : List GeneratedFile) :
    v.Repeats root files (v.placeFiles root files)
      ((v.placeFiles root files).2.placeFiles root files) := by
  have hresult := v.placeFiles_placesOf root files
  generalize v.placeFiles root files = first at hresult ⊢
  induction hresult with
  | done => exact ⟨rfl, fun _ => rfl, nofun⟩
  | @stopped v w f files problem hplaced =>
    obtain ⟨problem', hagain, hrecurs⟩ := exists_placeFile_again h hplaced
    have hsecond : w.placeFiles root (f :: files) = (({}, some problem'), w) :=
      placeFiles_eq_iff.mpr (.stopped hagain)
    rw [hsecond]
    refine ⟨rfl, nofun, ?_⟩
    rintro _ ⟨⟩
    exact ⟨[], f, files, problem', rfl, rfl, (fails_of_placeFile hplaced).1, rfl,
      (fails_of_placeFile hagain).1, hrecurs⟩
  | @placed v w x f files placement report problem hplaced hrest ih =>
    have hw : w.IsNested := by
      have hw := IsNested.additive.placeFile v (root.join f.path) f.content h
      rwa [hplaced] at hw
    have hgrown := placeFiles_grown w root files
    rw [placeFiles_eq_iff.mpr hrest] at hgrown
    have hrepeats := ih hw
    rw [placeFiles_cons (placeFile_again hplaced hgrown)]
    refine ⟨hrepeats.unchanged, fun hnone => ?_, fun problem hproblem => ?_⟩
    · rw [hrepeats.complete hnone]
      rfl
    · obtain ⟨done, g, later, problem', hfiles, hdone, hfails, hsecond, hagain, hrecurs⟩ :=
        hrepeats.stopped problem hproblem
      refine ⟨f :: done, g, later, problem', by rw [hfiles, List.cons_append], ?_, ?_, ?_, hagain, ?_⟩
      · rw [placeFiles_cons hplaced, hdone]
      · rw [placeFiles_cons hplaced]
        exact hfails
      · rw [hsecond]
        rfl
      · rw [placeFiles_cons hplaced]
        exact hrecurs

/-- Making the files of a tree again right away changes nothing, skips what was handled, and ends at the
file at which it ended, if it did, with the problem that comes again. -/
theorem materialize_again (h : v.IsNested) (root : Path) (tree : FileTree) :
    v.Repeats root tree.files (v.materialize root tree)
      ((v.materialize root tree).2.materialize root tree) :=
  repeats_placeFiles h root tree.files

section Small

-- what the operations on a small disk come to is found by following them
attribute [local simp] placeFiles placeFile createNew createFile exists? mkdirParent mkdirAll chain
  mkdirChain mkdir isDir find? Volume.set Disk.set Disk.get? locate walk Disk.steps bareSteps
  segmentStep Path.join Path.parent Path.ofReversed Path.idle Path.isAbsolute Path.empty
  Report.precede List.lookup_cons Except.isOk Except.toBool

/-- A disk with one file. -/
def oneFile : Volume := ⟨⟨[(["f"], .file (.text ""))]⟩, []⟩

/-- Two files, the second of which has a path that goes up to the file `f` and on through it. -/
def through : FileTree := ⟨[⟨⟨"g", []⟩, "t", ""⟩, ⟨⟨"a", ["..", "f", "x", "y"]⟩, "t", ""⟩]⟩

/-- The second run over these files ends at the file at which the first one ended, with another fault:
`f` is in the way of a directory first, and when `a` has been made, the way goes through `f`. -/
theorem materialize_through :
    (oneFile.materialize ⟨".", []⟩ through).1 =
      (⟨[⟨".", ["g"]⟩], []⟩,
        some (.directoryCreationFailed ⟨".", ["a", "..", "f", "x"]⟩ .exists)) ∧
    ((oneFile.materialize ⟨".", []⟩ through).2.materialize ⟨".", []⟩ through).1 =
      (⟨[], [⟨".", ["g"]⟩]⟩,
        some (.directoryCreationFailed ⟨".", ["a", "..", "f", "x"]⟩ .notDirectory)) := by
  have hadmissible : ∀ rest ∈ [["g"], ["a"], ["a", ".."], ["a", "..", "f"], ["a", "..", "f", "x"],
      ["a", "..", "f", "x", "y"], []], admissible ⟨".", rest⟩ = .ok () := by decide
  simp only [List.forall_mem_cons] at hadmissible
  constructor
  · simp +decide [oneFile, through, materialize, hadmissible]
  · simp +decide [oneFile, through, materialize, hadmissible]

/-- The disk with one file is sound. -/
theorem isNested_oneFile : oneFile.IsNested := ⟨nested_of_entries (by decide), rfl⟩

/-- What a second run tells of the directory at which it ends may be another fault. -/
theorem exists_other_fault : ∃ (v : Volume) (root : Path) (tree : FileTree) (dir : Path), v.IsNested ∧
    (v.materialize root tree).1.2 = some (.directoryCreationFailed dir .exists) ∧
    ((v.materialize root tree).2.materialize root tree).1.2 =
      some (.directoryCreationFailed dir .notDirectory) :=
  ⟨oneFile, ⟨".", []⟩, through, _, isNested_oneFile, congrArg Prod.snd materialize_through.1,
    congrArg Prod.snd materialize_through.2⟩

/-- The second run over these files comes again to what stands above the directory. -/
theorem materialize_again_through : oneFile.IsNested ∧
    oneFile.Repeats ⟨".", []⟩ through.files (oneFile.materialize ⟨".", []⟩ through)
      ((oneFile.materialize ⟨".", []⟩ through).2.materialize ⟨".", []⟩ through) ∧
    ∃ above, (oneFile.materialize ⟨".", []⟩ through).2.Blocks above ⟨".", ["a", "..", "f", "x"]⟩ ∧
      (oneFile.materialize ⟨".", []⟩ through).2.faultThrough above = .notDirectory := by
  obtain ⟨hfirst, hsecond⟩ := materialize_through
  have hrepeats := materialize_again isNested_oneFile ⟨".", []⟩ through
  refine ⟨isNested_oneFile, hrepeats, ?_⟩
  obtain ⟨done, f, later, problem', -, -, -, hagain, -, hrecurs⟩ :=
    hrepeats.stopped _ (congrArg Prod.snd hfirst)
  rw [hsecond] at hagain
  obtain rfl := Option.some.inj (congrArg Prod.snd hagain)
  generalize hfault : Fault.notDirectory = fault at hrecurs
  cases hrecurs with
  | same => cases hfault
  | through blocks => exact ⟨_, blocks, rfl⟩

end Small

end Volume

end AppScaffold
