import AppScaffold.Proofs.Disk.Adding
import AppScaffold.Proofs.Disk.Listing
import Mathlib.Data.List.Basic
import Mathlib.Tactic.Common

/-!
# Whether something is at a path

Something is at a path if an entry is at its end, be it a link that leads nowhere. A file that is made
where nothing is can be read back at once. The directories that are made above a path bring nothing to
its end unless the path goes up from one of them.
-/

namespace AppScaffold

open Disk

namespace Disk

variable {d : Disk} {links : Nat} {cur : Location} {todo : List Step}

/-- A way that leads to an entry leads to one also if a link at its end is not followed. -/
theorem exists_walk_found {loc : Location} (h : d.walk true links cur todo = .ok (.found loc)) :
    ∃ loc', d.walk false links cur todo = .ok (.found loc') := by
  fun_induction walk d true links cur todo with
  | case1 => exact ⟨_, by rw [walk]⟩
  | case2 _ _ _ ih | case3 _ _ _ ih | case4 _ _ _ ih =>
    rw [walk]
    exact ih h
  | case9 _ _ _ _ hlimit hdir ih =>
    rw [walk_dir hlimit hdir]
    exact ih h
  | case10 _ _ _ _ hlimit _ hfile hrest =>
    rw [walk_file hlimit hfile, if_pos hrest]
    exact ⟨_, rfl⟩
  | case12 _ _ _ _ _ _ _ hrest => simp at hrest
  | case15 _ _ rest hlimit target hlink _ links hempty ih =>
    rw [walk_link hlimit hlink]
    by_cases hrest : (rest.isEmpty && !false) = true
    · rw [if_pos hrest]
      exact ⟨_, rfl⟩
    · rw [if_neg hrest]
      simp only [hempty, if_false]
      exact ih h
  | _ => cases h

/-- A way that ends at a free name ends there also if links at its end are followed. -/
theorem walk_of_free {dir : Location} {name : String} {slash : Bool}
    (h : d.walk false links cur todo = .ok (.free dir name slash)) :
    d.walk true links cur todo = .ok (.free dir name slash) := by
  fun_induction walk d false links cur todo with
  | case2 _ _ _ ih | case3 _ _ _ ih | case4 _ _ _ ih =>
    rw [walk]
    exact ih h
  | case6 _ _ _ hlimit hnone | case7 _ _ _ hlimit hnone =>
    cases h
    rw [walk.eq_def]
    simp only [if_neg hlimit, hnone]
  | case9 _ _ _ _ hlimit hdir ih =>
    rw [walk_dir hlimit hdir]
    exact ih h
  | case15 _ _ rest hlimit target hlink hrest links hempty ih =>
    rw [walk_link hlimit hlink, if_neg (by simp)]
    simp only [hempty, if_false]
    exact ih h
  | _ => cases h

/-- A way that ends at a free name before a slash ends with a slash. -/
theorem getLast?_of_walk_slash {dir : Location} {name : String}
    (h : d.walk false links cur todo = .ok (.free dir name true)) :
    todo.getLast? = some .slash := by
  have hcons : ∀ {step : Step} {rest : List Step}, rest.getLast? = some .slash →
      (step :: rest).getLast? = some .slash := fun hrest => by simp [List.getLast?_cons, hrest]
  fun_induction walk d false links cur todo with
  | case2 _ _ _ ih | case3 _ _ _ ih | case4 _ _ _ ih => exact hcons (ih h)
  | case7 => rfl
  | case9 _ _ _ _ _ _ ih => exact hcons (ih h)
  | case15 _ _ rest hlimit target hlink hrest links hempty ih =>
    have hlast := ih h
    have hne : rest ≠ [] := by
      rintro rfl
      simp at hrest
    rw [List.getLast?_append_of_ne_nil _ hne] at hlast
    exact hcons hlast
  | _ => cases h

/-- A way to a free name leads to the entry that is set there: to a directory, or to a file if no slash
follows the name. -/
theorem walk_set_of_free {dir : Location} {name : String} {slash : Bool} {e : Entry}
    (h : d.walk true links cur todo = .ok (.free dir name slash))
    (he : e = .dir ∨ slash = false ∧ ∃ c, e = .file c) :
    (d.set (dir ++ [name]) e).walk true links cur todo = .ok (.found (dir ++ [name])) := by
  have hwithin : Within d (d.set (dir ++ [name]) e) := within_set (get?_of_walk_free h) e
  have hnew : (d.set (dir ++ [name]) e).get? (dir ++ [name]) = some e := by
    rw [get?_set _ _ _ _ (by simp), if_pos rfl]
  fun_induction walk d true links cur todo with
  | case2 _ _ _ ih | case3 _ _ _ ih | case4 _ _ _ ih =>
    rw [walk]
    exact ih h
  | case6 _ _ _ hlimit hnone =>
    cases h
    rcases he with rfl | ⟨-, c, rfl⟩
    · rw [walk_dir hlimit hnew, walk]
    · rw [walk_file hlimit hnew]
      rfl
  | case7 _ _ _ hlimit hnone =>
    cases h
    rcases he with rfl | ⟨hslash, -⟩
    · rw [walk_dir hlimit hnew, walk, walk]
    · cases hslash
  | case9 _ _ _ _ hlimit hdir ih =>
    rw [walk_dir hlimit (hwithin _ _ hdir)]
    exact ih h
  | case15 _ _ rest hlimit target hlink hrest links hempty ih =>
    rw [walk_link hlimit (hwithin _ _ hlink), if_neg (by simp)]
    simp only [hempty, if_false]
    exact ih h
  | _ => cases h

/-- From a directory in which nothing is, a way with a name and without steps upwards leads to no
entry. -/
theorem walk_ne_found_of_empty {follow : Bool} (hempty : ∀ s, d.get? (cur ++ [s]) = none)
    (hup : .up ∉ todo) {s : String} (hname : .name s ∈ todo) (loc : Location) :
    d.walk follow links cur todo ≠ .ok (.found loc) := by
  induction todo with
  | nil => cases hname
  | cons step todo ih =>
    cases step with
    | up => exact absurd List.mem_cons_self hup
    | stay | slash =>
      rw [walk]
      exact ih (fun hmem => hup (List.mem_cons_of_mem _ hmem)) (by simpa using hname)
    | name s =>
      by_cases hlimit : nameLimit < s.utf8ByteSize
      · rw [walk.eq_def]
        simp [hlimit]
      · exact walk_ne_found hlimit (hempty s)

end Disk

/-- A path has no final slash among its steps but for the one that it ends with. -/
theorem slash_notMem_bareSteps (p : Path) : .slash ∉ bareSteps p := by
  intro hmem
  obtain ⟨s, -, hs⟩ := List.mem_filterMap.mp hmem
  unfold segmentStep at hs
  split_ifs at hs <;> cases hs

namespace Volume

variable {v w : Volume} {p q : Path} {s : String}

/-- Something is at a path: a link at its end counts, wherever it leads. -/
def Occupied (v : Volume) (p : Path) : Prop :=
  ∃ loc, v.disk.locate v.cwd false p (Disk.steps p) = .ok (.found loc)

/-- Where a path is admissible it is followed step by step. -/
theorem locate_eq_walk (h : admissible p = .ok ()) {follow : Bool} {todo : List Step} :
    v.disk.locate v.cwd follow p todo = v.disk.walk follow linkLimit (v.start p) todo := by
  rw [locate, h]
  rfl

/-- A path that is followed to the end is admissible. -/
theorem admissible_of_locate {follow : Bool} {todo : List Step} {place : Place}
    (h : v.disk.locate v.cwd follow p todo = .ok place) : admissible p = .ok () := by
  rw [locate] at h
  split at h
  · cases h
  · assumption

/-- A path that exists is occupied. -/
theorem occupied_of_exists? (h : v.exists? p = true) : v.Occupied p := by
  unfold exists? find? at h
  split at h
  · next loc hlocate =>
    have hp := admissible_of_locate hlocate
    rw [locate_eq_walk hp] at hlocate
    obtain ⟨loc', hfound⟩ := exists_walk_found hlocate
    exact ⟨loc', by rw [locate_eq_walk hp, hfound]⟩
  · cases h
  · cases h

/-- What is occupied stays so when something is added. -/
theorem Grown.occupied (h : Grown v w) (hp : v.Occupied p) : w.Occupied p := by
  obtain ⟨loc, hlocate⟩ := hp
  have hadmissible := admissible_of_locate hlocate
  rw [locate_eq_walk hadmissible] at hlocate
  refine ⟨loc, ?_⟩
  rw [locate_eq_walk hadmissible, h.start_eq]
  exact h.within.walk_found hlocate

/-- What could be read can still be read when something has been added. -/
theorem Grown.readText (h : Grown v w) (hp : v.readText p = .ok s) : w.readText p = .ok s := by
  unfold Volume.readText find? at hp ⊢
  split at hp
  · next t hfind =>
    split at hfind
    · next loc hlocate =>
      split at hfind
      · next e he =>
        have hadmissible := admissible_of_locate hlocate
        rw [locate_eq_walk hadmissible] at hlocate
        rw [locate_eq_walk hadmissible, h.start_eq, h.within.walk_found hlocate]
        cases hfind
        simp only [h.within _ _ he]
        exact hp
      · cases hfind
    · cases hfind
    · cases hfind
  all_goals cases hp

/-- A file that is made at a free name can be read at once. -/
theorem readText_set (hslash : ¬endsWithSlash p) {dir : Location} {name : String} {slash : Bool}
    (h : v.disk.locate v.cwd false p (Disk.steps p) = .ok (.free dir name slash)) :
    (v.set (dir ++ [name]) (.file (.text s))).readText p = .ok s := by
  have hadmissible := admissible_of_locate h
  rw [locate_eq_walk hadmissible] at h
  have hsteps : Disk.steps p = bareSteps p := by simp [Disk.steps, hslash]
  have hnone : slash = false := by
    cases slash with
    | false => rfl
    | true =>
      rw [hsteps] at h
      exact absurd (List.mem_of_getLast? (getLast?_of_walk_slash h)) (slash_notMem_bareSteps p)
  have hfound := walk_set_of_free (walk_of_free h) (.inr ⟨hnone, .text s, rfl⟩)
  have hset : (v.set (dir ++ [name]) (.file (.text s))).disk.get? (dir ++ [name]) =
      some (.file (.text s)) := by
    rw [set, get?_set _ _ _ _ (by simp), if_pos rfl]
  have hlocate : (v.set (dir ++ [name]) (.file (.text s))).disk.locate
      (v.set (dir ++ [name]) (.file (.text s))).cwd true p (Disk.steps p) =
        .ok (.found (dir ++ [name])) := by
    rw [locate_eq_walk hadmissible]
    exact hfound
  unfold readText find?
  rw [hlocate]
  simp only [hset]

/-- A fault other than that something is there ends the making of a file. -/
theorem createNew_of_error {e : Fault} (hp : ¬v.exists? p = true) (he : e ≠ .exists)
    (h : v.createFile p s = (.error e, v)) : v.createNew p s = (.error e, v) := by
  rw [createNew, if_neg hp, h]
  cases e <;> first | rfl | exact absurd rfl he

/-- A file is not made at a path with a final slash at which nothing is. -/
theorem createNew_of_slash (hp : ¬v.exists? p = true) (hslash : endsWithSlash p = true) :
    v.createNew p s = (.error (v.refuseSlash p), v) := by
  refine createNew_of_error hp ?_ (by rw [createFile, if_pos hslash])
  rw [refuseSlash]
  split
  · rintro rfl
    exact locate_ne_exists _ _ _ _ _ ‹_›
  · decide

/-- Making a file where nothing is: it fails and changes nothing, or something is at the path and
nothing is changed, or nothing was there and the path leads to the new file. -/
theorem createNew_result (v : Volume) (p : Path) (s : String) :
    (∃ e, v.createNew p s = (.error e, v)) ∨
    (v.createNew p s = (.ok .skipped, v) ∧ v.Occupied p) ∨
    ∃ w, v.createNew p s = (.ok .created, w) ∧ ¬v.Occupied p ∧ w.readText p = .ok s := by
  by_cases hp : v.exists? p = true
  · exact .inr (.inl ⟨by rw [createNew, if_pos hp], occupied_of_exists? hp⟩)
  by_cases hslash : endsWithSlash p = true
  · exact .inl ⟨_, createNew_of_slash hp hslash⟩
  · cases hlocate : v.disk.locate v.cwd false p (Disk.steps p) with
    | error e =>
      have hne : e ≠ .exists := by
        rintro rfl
        exact locate_ne_exists _ _ _ _ _ hlocate
      exact .inl ⟨e, createNew_of_error hp hne (by rw [createFile, if_neg hslash, hlocate])⟩
    | ok place =>
      cases place with
      | found loc =>
        exact .inr (.inl ⟨by rw [createNew, if_neg hp, createFile, if_neg hslash, hlocate], loc, hlocate⟩)
      | free dir name slash =>
        refine .inr (.inr ⟨_, by rw [createNew, if_neg hp, createFile, if_neg hslash, hlocate], ?_,
          readText_set hslash hlocate⟩)
        rintro ⟨loc, hfound⟩
        rw [hlocate] at hfound
        cases hfound

/-- A path leads to a directory in which nothing is. -/
def LeadsToEmpty (v : Volume) (p : Path) : Prop :=
  ∃ loc, v.disk.locate v.cwd true p (bareSteps p) = .ok (.found loc) ∧
    v.disk.get? loc = some .dir ∧ ∀ s, v.disk.get? (loc ++ [s]) = none

/-- A directory that is made is empty. -/
theorem leadsToEmpty_of_mkdir (h : v.IsNested) (hmade : v.mkdir p = (.ok (), w)) :
    w.LeadsToEmpty p := by
  unfold mkdir at hmade
  split at hmade
  · next dir name slash hlocate =>
    cases hmade
    have hfree := get?_of_locate_free hlocate
    have hadmissible := admissible_of_locate hlocate
    rw [locate_eq_walk hadmissible] at hlocate
    refine ⟨dir ++ [name], ?_, ?_, fun s => ?_⟩
    · rw [locate_eq_walk hadmissible]
      exact walk_set_of_free (walk_of_free hlocate) (.inl rfl)
    · rw [set, get?_set _ _ _ _ (by simp), if_pos rfl]
    · rw [set, get?_set _ _ _ _ (by simp), if_neg (by simp)]
      exact h.disk.get?_eq_none hfree s
  · cases hmade
  · cases hmade

/-- A path that leads on from an empty directory, and not upwards, leads to no entry. -/
theorem LeadsToEmpty.locate_ne_found (h : v.LeadsToEmpty q) (hparent : p.parent = some q)
    (hup : .up ∉ bareSteps p) {follow : Bool} {tail : List Step} (htail : .up ∉ tail)
    (loc : Location) : v.disk.locate v.cwd follow p (bareSteps p ++ tail) ≠ .ok (.found loc) := by
  obtain ⟨dir, hlocate, hdir, hempty⟩ := h
  have hq := admissible_of_locate hlocate
  rw [locate_eq_walk hq] at hlocate
  obtain ⟨hheads, rfl | ⟨back, hback, step, hstep, hmoves⟩⟩ := Path.heads_of_parent hparent
  · cases hq
  · intro hfound
    have hstart : v.start p = v.start q := by rw [start, start, hheads.start]
    have hupback : .up ∉ back ++ tail := by
      rw [hback] at hup
      simp only [List.mem_append, not_or] at hup ⊢
      exact ⟨hup.2, htail⟩
    obtain ⟨s, rfl⟩ : ∃ s, step = .name s := by
      cases step with
      | name s => exact ⟨s, rfl⟩
      | up => exact absurd (List.mem_append_left _ hstep) hupback
      | stay | slash => exact hmoves.elim
    have hmem : .name s ∈ back ++ tail := List.mem_append_left _ hstep
    obtain ⟨links, hwalk⟩ := walk_append hlocate hdir (List.ne_nil_of_mem hmem) follow
    rw [locate_eq_walk (admissible_of_locate hfound), hback, List.append_assoc, hstart, hwalk] at hfound
    exact walk_ne_found_of_empty hempty hupback hmem loc hfound

/-- A directory that is made at the head of a chain was there, or it is made at once, or its parents are
made first; then it is made, or it is there. -/
theorem mkdirChain_cons_result {parents : List Path}
    (h : v.mkdirChain (p :: parents) = (.ok (), w)) :
    (p = Path.empty ∨ v.isDir p = true) ∧ w = v ∨ v.mkdir p = (.ok (), w) ∨
      (v.mkdir p).1 = .error .notFound ∧ ∃ u, v.mkdirChain parents = (.ok (), u) ∧
        (u.mkdir p = (.ok (), w) ∨ w = u ∧ u.isDir p = true) := by
  cases mkdirChain_eq_iff.mp h with
  | empty => exact .inl ⟨.inl rfl, rfl⟩
  | made _ hmade => exact .inr (.inl hmade)
  | there _ _ _ hdir => exact .inl ⟨.inr hdir, rfl⟩
  | madeAfter _ hmissing hparents hagain =>
    exact .inr (.inr ⟨by rw [hmissing], _, mkdirChain_eq_iff.mpr hparents, .inl hagain⟩)
  | thereAfter _ hmissing hparents _ hdir =>
    exact .inr (.inr ⟨by rw [hmissing], _, mkdirChain_eq_iff.mpr hparents, .inr ⟨rfl, hdir⟩⟩)

/-- A chain begins with its path; the chain of the parent follows, if there is one. -/
theorem chain_eq (n : ℕ) (p : Path) :
    ∃ parents, chain n p = p :: parents ∧
      (parents = [] ∨ ∃ m < n, ∃ q, p.parent = some q ∧ parents = chain m q) := by
  cases n with
  | zero => exact ⟨[], rfl, .inl rfl⟩
  | succ m =>
    rw [chain]
    split
    · next q hparent => exact ⟨_, rfl, .inr ⟨m, Nat.lt_succ_self m, q, hparent, rfl⟩⟩
    · exact ⟨[], rfl, .inl rfl⟩

/-- A directory that is there can be followed also without the final slash of its path. -/
theorem locate_of_isDir (h : v.isDir p = true) :
    ∃ loc, v.disk.locate v.cwd true p (Disk.steps p) = .ok (.found loc) := by
  unfold isDir find? at h
  split at h
  · next hfind =>
    split at hfind
    · exact ⟨_, ‹_›⟩
    · cases hfind
    · cases hfind
  · cases h

/-- A directory is not made where a path leads to an entry. -/
theorem mkdir_of_locate {loc : Location}
    (h : v.disk.locate v.cwd true p (Disk.steps p) = .ok (.found loc)) :
    v.mkdir p = (.error .exists, v) := by
  obtain ⟨loc', hfound⟩ := exists_walk_found (walk_bareSteps_of_locate h)
  have hbare : v.disk.locate v.cwd false p (bareSteps p) = .ok (.found loc') := by
    rw [locate_eq_walk (admissible_of_locate h)]
    exact hfound
  rw [mkdir, hbare]

/-- A directory that is there is not made again. -/
theorem mkdir_of_isDir (h : v.isDir p = true) : v.mkdir p = (.error .exists, v) := by
  obtain ⟨loc, hlocate⟩ := locate_of_isDir h
  exact mkdir_of_locate hlocate

/-- A directory at the end of a path that does not go up, made with all that it needs above it, was
there before, or it is empty. -/
theorem eq_or_leadsToEmpty_of_mkdirChain (h : v.IsNested) {n : ℕ} (hup : .up ∉ bareSteps p)
    (hmade : v.mkdirChain (chain n p) = (.ok (), w)) : w = v ∨ w.LeadsToEmpty p := by
  induction n using Nat.strongRecOn generalizing p w with
  | ind n ih =>
    obtain ⟨parents, hchain, hnext⟩ := chain_eq n p
    rw [hchain] at hmade
    rcases mkdirChain_cons_result hmade with ⟨-, hsame⟩ | hmkdir | ⟨hmissing, u, hparents, hlast⟩
    · exact .inl hsame
    · exact .inr (leadsToEmpty_of_mkdir h hmkdir)
    have hnested : u.IsNested := by
      have hu := IsNested.additive.mkdirChain v parents h
      rwa [hparents] at hu
    rcases hlast with hmkdir | ⟨rfl, hdir⟩
    · exact .inr (leadsToEmpty_of_mkdir hnested hmkdir)
    · rcases hnext with rfl | ⟨m, hm, q, hparent, rfl⟩
      · cases hparents
      · have hupq : .up ∉ bareSteps q := fun hmem =>
          hup ((Path.heads_of_parent hparent).1.steps.subset hmem)
        rcases ih m hm hupq hparents with rfl | hempty
        · rw [mkdir_of_isDir hdir] at hmissing
          cases hmissing
        · obtain ⟨loc, hlocate⟩ := locate_of_isDir hdir
          exact absurd hlocate (hempty.locate_ne_found hparent hup (by split <;> simp) loc)

/-- The directories that are made above a path that does not go up bring nothing to its end. -/
theorem occupied_mkdirParent_iff (h : v.IsNested) (hup : .up ∉ bareSteps p)
    (hmade : v.mkdirParent p = (.ok (), w)) : w.Occupied p ↔ v.Occupied p := by
  have hgrown : Grown v w := by
    have hgrown := mkdirParent_grown v p
    rwa [hmade] at hgrown
  refine ⟨fun hoccupied => ?_, hgrown.occupied⟩
  cases mkdirParent_eq_iff.mp hmade with
  | top => exact hoccupied
  | @paved q _ hparent hall =>
    have hupq : .up ∉ bareSteps q := fun hmem =>
      hup ((Path.heads_of_parent hparent).1.steps.subset hmem)
    rcases eq_or_leadsToEmpty_of_mkdirChain h hupq hall with rfl | hempty
    · exact hoccupied
    · obtain ⟨loc, hlocate⟩ := hoccupied
      exact absurd hlocate (hempty.locate_ne_found hparent hup (by split <;> simp) loc)

end Volume

end AppScaffold
