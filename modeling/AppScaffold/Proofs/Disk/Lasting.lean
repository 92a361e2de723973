import AppScaffold.Proofs.Disk.Confining
import AppScaffold.Proofs.Disk.Repeating

/-!
# What can still be read

Without links a way goes through directories up to its end. A file that could be read can therefore be
read as long as the directories stay and the file keeps its place, whatever is written elsewhere, and a
file that has been written can be read. A path that goes down from one that goes up only from
directories does so itself, and what is new on its way lies above its end.
-/

namespace AppScaffold

open Disk

/-- A way to a file stays open as long as the directories stay. -/
theorem Disk.LinkFree.walk_file {d d' : Disk} (hd : d.LinkFree)
    (hdirs : ∀ loc, d.get? loc = some .dir → d'.get? loc = some .dir) {follow : Bool} {links : Nat}
    {cur loc : Location} {todo : List Step} {c c' : Content} (hfile : d.get? loc = some (.file c))
    (hfile' : d'.get? loc = some (.file c')) (h : d.walk follow links cur todo = .ok (.found loc)) :
    d'.walk follow links cur todo = .ok (.found loc) := by
  fun_induction walk d follow links cur todo with
  | case1 => rwa [walk]
  | case2 _ _ _ ih | case3 _ _ _ ih | case4 _ _ _ ih =>
    rw [walk]
    exact ih h
  | case9 _ _ _ _ hlimit hdir ih =>
    rw [walk_dir hlimit (hdirs _ hdir)]
    exact ih h
  | case10 _ _ _ _ hlimit _ _ hrest =>
    cases h
    rw [Disk.walk_file hlimit hfile', if_pos hrest]
  | case12 _ _ _ _ _ _ hlink | case15 _ _ _ _ _ hlink => exact absurd hlink (hd _ _)
  | _ => cases h

namespace Volume

variable {v w : Volume} {root p q : Path} {loc : Location} {names : List String} {t : String}

/-- What can be read exists. -/
theorem exists?_of_readText (h : v.readText p = .ok t) : v.exists? p = true := by
  unfold readText at h
  unfold exists?
  split at h
  · next hfind =>
    rw [hfind]
    rfl
  · cases h
  · cases h
  · cases h

/-- A file that a path leads to can be read there. -/
theorem readText_of_locate (h : v.disk.locate v.cwd true p (Disk.steps p) = .ok (.found loc))
    (hfile : v.disk.get? loc = some (.file (.text t))) : v.readText p = .ok t := by
  rw [readText, find?, h]
  simp only [hfile]

/-- A file that could be read can be read as long as the directories stay and the file is where it was. -/
theorem readText_of_dirs (hv : v.disk.LinkFree) (hcwd : w.cwd = v.cwd)
    (hdirs : ∀ loc, v.disk.get? loc = some .dir → w.disk.get? loc = some .dir)
    (h : v.readText p = .ok t) {t' : String}
    (hkept : w.disk.get? (v.place p) = some (.file (.text t'))) : w.readText p = .ok t' := by
  have hfile := get?_of_readText hv h
  have hfound : v.disk.locate v.cwd true p (Disk.steps p) = .ok (.found (v.place p)) := by
    unfold readText find? at h
    cases hlocate : v.disk.locate v.cwd true p (Disk.steps p) with
    | error e =>
      rw [hlocate] at h
      cases h
    | ok place =>
      have hplace : place.location = v.place p := Volume.location_of_locate hv hlocate
      rw [hlocate] at h
      cases place with
      | free dir name slash => cases h
      | found loc =>
        obtain rfl : loc = v.place p := hplace
        rfl
  have hadmissible := admissible_of_locate hfound
  rw [locate_eq_walk hadmissible] at hfound
  refine readText_of_locate ?_ hkept
  rw [locate_eq_walk hadmissible, start, hcwd]
  exact hv.walk_file hdirs hfile hkept hfound

/-- A file that has been written can be read. -/
theorem readText_of_writeFile (h : v.writeFile p t = (.ok (), w)) : w.readText p = .ok t := by
  have hslash : ¬endsWithSlash p := by
    intro hslash
    rw [writeFile, if_pos hslash] at h
    cases h
  rw [writeFile, if_neg hslash] at h
  split at h
  · next dir name hlocate =>
    cases h
    have hadmissible := admissible_of_locate hlocate
    rw [locate_eq_walk hadmissible] at hlocate
    have hnew : (v.set (dir ++ [name]) (.file (.text t))).disk.get? (dir ++ [name]) =
        some (.file (.text t)) := by
      rw [set, get?_set _ _ _ _ (by simp), if_pos rfl]
    refine readText_of_locate ?_ hnew
    rw [locate_eq_walk hadmissible]
    exact walk_set_of_free hlocate (.inr ⟨rfl, .text t, rfl⟩)
  · cases h
  · next loc hlocate =>
    split at h
    · next c hfile =>
      cases h
      have hadmissible := admissible_of_locate hlocate
      have hne : loc ≠ [] := by
        rintro rfl
        cases hfile
      have hnew : (v.set loc (.file (.text t))).disk.get? loc = some (.file (.text t)) := by
        rw [set, get?_set _ _ _ _ hne, if_pos rfl]
      rw [locate_eq_walk hadmissible] at hlocate
      refine readText_of_locate ?_ hnew
      rw [locate_eq_walk hadmissible]
      exact (walk_set_file hfile ..).trans hlocate
    · cases h
  · cases h

/-- Where all files were placed there is something at each place. -/
theorem exists_of_placeFiles (h : v.IsPlain) {base : Path} {files : List GeneratedFile}
    {report : Report} (hplaced : v.placeFiles base files = ((report, none), w)) {f : GeneratedFile}
    (hf : f ∈ files) : ∃ e, w.disk.get? (v.place (base.join f.path)) = some e := by
  induction files generalizing v report with
  | nil => cases hf
  | cons g files ih =>
    have hfirst := placeFile_placed h (base.join g.path) g.content
    cases placeFiles_eq_iff.mp hplaced with
    | @placed _ u _ _ _ placement _ _ hg hrest =>
      rw [hg] at hfirst
      have hrest := placeFiles_eq_iff.mpr hrest
      rcases List.mem_cons.mp hf with rfl | hf
      · have hlater := placeFiles_grown u base files
        rw [hrest] at hlater
        cases hfirst with
        | created _ htext => exact ⟨_, hlater.within _ _ htext⟩
        | skipped hthere =>
          obtain ⟨e, he⟩ := hthere
          exact ⟨e, hlater.within _ _ he⟩
      · rw [← hfirst.added.toGrown.place_eq]
        exact ih hfirst.added.plain hrest hf

/-- A path that goes up only from directories still does when something has been added. -/
theorem Grown.grounded (h : Grown v w) (hp : v.Grounded p) : w.Grounded p := by
  intro front back hsteps
  rw [h.start_eq]
  exact h.within _ _ (hp front back hsteps)

/-- A path that goes down from one that goes up only from directories does so itself. -/
theorem Grounded.leadsDown (hroot : v.Grounded root) (hp : Path.LeadsDown root p names) :
    v.Grounded p := by
  obtain ⟨below, hbare, hup, -⟩ := hp.bare
  have hsteps : Disk.steps p = bareSteps root ++ (below ++ if endsWithSlash p then [.slash] else []) := by
    rw [Disk.steps, hbare, List.append_assoc]
  refine hroot.of_steps hp.start hsteps ?_
  rw [List.mem_append, not_or]
  refine ⟨hup, ?_⟩
  split_ifs <;> simp

/-- What is on the way of a path that goes up only from directories is a directory already, or it lies
above the end of the path. -/
theorem Grounded.above_cases (h : v.IsPlain) (hp : v.Grounded p) (habove : v.Above p loc) :
    v.disk.get? loc = some .dir ∨ loc <+: v.place p := by
  obtain ⟨front, back, hsteps, -, rfl⟩ := habove
  by_cases hup : .up ∈ back
  · refine .inl (Disk.Grounded.get?_eq_dir h.disk ?_ hup)
    rw [← hsteps]
    exact hp
  · have hplace : v.place p = destination (destination (v.start p) front) back := by
      rw [← destination_append, ← hsteps]
      rfl
    rw [hplace]
    exact .inr (prefix_destination hup)

end Volume

/-- The text of a path begins with that of the path to which its end was joined. -/
theorem Path.text_prefix_join {p q : Path} (hp : p ≠ Path.empty) (hq : q.isAbsolute = false) :
    p.text.toList <+: (p.join q).text.toList := by
  obtain ⟨kept, hjoin, hrest⟩ := exists_join_eq hp hq
  rw [hjoin, toList_text, toList_text]
  dsimp only
  rw [List.flatMap_append, List.flatMap_cons, ← List.append_assoc]
  rcases hrest with hrest | hrest
  · rw [hrest]
    exact List.prefix_append ..
  · rw [hrest, List.flatMap_append, ← List.append_assoc]
    simp

/-- If the file system takes a path it takes the one to which its end was joined. -/
theorem Path.IsPassable.of_join {p q : Path} (h : (p.join q).IsPassable) (hp : p ≠ Path.empty)
    (hq : q.isAbsolute = false) : p.IsPassable := by
  obtain ⟨more, hmore⟩ := text_prefix_join hp hq
  have htext : (p.join q).text = p.text ++ String.ofList more := by
    refine String.toList_injective ?_
    rw [String.toList_append, String.toList_ofList, hmore]
  constructor
  · have hadmissible := h.admissible
    unfold Disk.admissible at hadmissible ⊢
    split_ifs at hadmissible with hzero hempty hlong
    rw [htext, String.toList_append, List.any_append, Bool.or_eq_true, not_or] at hzero
    rw [htext, String.utf8ByteSize_append] at hlong
    rw [if_neg hzero.1, if_neg hp, if_neg (by omega)]
  · intro s hs
    refine h.short s ?_
    rw [bareSteps_join hq]
    exact List.mem_append_left _ hs

end AppScaffold
