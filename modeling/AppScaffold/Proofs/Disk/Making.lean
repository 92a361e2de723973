import AppScaffold.Proofs.Disk.Occupied
import AppScaffold.Proofs.Disk.Showing
import Mathlib.Data.List.Basic
import Mathlib.Data.List.Induction
import Mathlib.Tactic.Common

/-!
# A directory that is not there yet

A path may lead nowhere because the directory at its end, or some above it, has not been made. What is
looked for below such a directory is not found, and what is made below it is made as if the directory
had been made first.
-/

namespace AppScaffold.Volume

open Disk

/-- Making the directory at the end of a path turns `v` into `w`, and nothing is in the directory. -/
structure Made (v w : Volume) (p : Path) (dir : Location) : Prop extends Vacant w p dir where
  /-- The directory can be made. -/
  made : v.mkdirAll p = (.ok (), w)

/-- Where a directory is made, or those above it are missing, nothing is there yet. -/
theorem missing_of_mkdir {v : Volume} {p : Path}
    (h : (v.mkdir p).1 = .ok () ∨ (v.mkdir p).1 = .error .notFound) :
    Missing (v.disk.locate v.cwd false p (bareSteps p)) := by
  rw [mkdir] at h
  split at h
  · next hlocate =>
    rw [hlocate]
    trivial
  · simp at h
  · next hlocate =>
    rw [hlocate]
    simp only [reduceCtorEq, Except.error.injEq, false_or] at h
    subst h
    trivial

/-- A directory is made at once, or its parents are missing, or it is there. -/
theorem mkdirAll_cases {v w : Volume} {p : Path} (hne : p ≠ Path.empty)
    (h : v.mkdirAll p = (.ok (), w)) :
    Missing (v.disk.locate v.cwd false p (bareSteps p)) ∨ w = v := by
  obtain ⟨parents, hchain, -⟩ := chain_eq (p.rest.length + 1) p
  rw [mkdirAll, hchain] at h
  cases mkdirChain_eq_iff.mp h with
  | empty => exact absurd rfl hne
  | made _ hmade => exact .inl (missing_of_mkdir (.inl (by rw [hmade])))
  | there => exact .inr rfl
  | madeAfter _ hmissing | thereAfter _ hmissing =>
    exact .inl (missing_of_mkdir (.inr (by rw [hmissing])))

/-- A directory that cannot be reached, for another reason than that it is missing, is not made. -/
theorem mkdirAll_of_error {v : Volume} {p : Path} (hp : p.IsTrimmed) {e : Fault}
    (he : e ≠ .notFound) (h : ∀ follow, v.disk.locate v.cwd follow p (bareSteps p) = .error e) :
    v.mkdirAll p = (.error e, v) := by
  have hdir : v.isDir p = false := by
    rw [isDir, find?, hp.steps_eq, h]
  obtain ⟨parents, hchain, -⟩ := chain_eq (p.rest.length + 1) p
  have hmade : v.mkdir p = (.error e, v) := by rw [mkdir, h]
  rw [mkdirAll, hchain]
  exact mkdirChain_eq_iff.mpr (.barred hp.ne_empty hmade he hdir)

/-- An empty directory that is there need not be made. -/
theorem made_of_vacant {v : Volume} {p : Path} {dir : Location} (h : Vacant v p dir) : Made v v p dir := by
  have hdir : v.isDir p = true := by
    rw [isDir, find?, h.trimmed.steps_eq, locate, h.admissible]
    simp only [h.walk, h.there]
  obtain ⟨parents, hchain, -⟩ := chain_eq (p.rest.length + 1) p
  refine ⟨h, ?_⟩
  rw [mkdirAll, hchain]
  exact mkdirChain_eq_iff.mpr (.there h.trimmed.ne_empty (mkdir_of_isDir hdir) (by decide) hdir)

namespace Made

variable {v w : Volume} {p : Path} {dir : Location} {names : List String}

/-- The directory was there, or names that follow its path lead nowhere. -/
theorem locate_eq (h : Made v w p dir) :
    w = v ∨ ∀ names, Follows p names → names ≠ [] → ∀ follow,
      v.disk.locate v.cwd follow (p.extend names) (bareSteps (p.extend names)) =
        .error .notFound := by
  rcases mkdirAll_cases h.trimmed.ne_empty h.made with hmissing | hsame
  · refine .inr fun names hf hne follow => ?_
    rw [locate, h.admissible] at hmissing
    rw [locate, hf.admissible_extend h.trimmed h.admissible, (h.trimmed.steps_extend hf.proper).1,
      h.trimmed.isAbsolute_extend]
    obtain ⟨s, hs⟩ := List.exists_mem_of_ne_nil names hne
    exact walk_append_of_missing hmissing ⟨.name s, List.mem_map_of_mem hs, trivial⟩ follow
  · exact .inl hsame

/-- Nothing is found below the directory, before and after it is made. -/
theorem find?_eq (h : Made v w p dir) (hf : Follows p names) (hne : names ≠ []) :
    v.find? (p.extend names) = .error .notFound ∧ w.find? (p.extend names) = .error .notFound := by
  have hafter : w.find? (p.extend names) = .error .notFound := by
    obtain ⟨front, s, rfl⟩ := (List.eq_nil_or_concat' names).resolve_left hne
    exact (Shows.of_vacant h.toVacant).find?_eq h.toVacant hf ⟨fun _ _ _ => rfl, fun _ _ => rfl⟩
  rcases h.locate_eq with rfl | hnowhere
  · exact ⟨hafter, hafter⟩
  · obtain ⟨hbare, hsteps⟩ := h.trimmed.steps_extend hf.proper
    refine ⟨?_, hafter⟩
    rw [find?, hsteps, ← hbare, hnowhere names hf hne]

/-- Directories below are made as if the directory had been made first. -/
theorem mkdirAll_extend (h : Made v w p dir) (hf : Follows p names) (hne : names ≠ []) :
    v.mkdirAll (p.extend names) = w.mkdirAll (p.extend names) := by
  rcases h.locate_eq with rfl | hnowhere
  · rfl
  induction names using List.reverseRecOn with
  | nil => exact absurd rfl hne
  | append_singleton names s ih =>
    have hmkdir : v.mkdir (p.extend (names ++ [s])) = (.error .notFound, v) := by
      rw [mkdir, hnowhere _ hf hne]
    have hfree : ∀ q, q ≠ [] → w.disk.get? (dir ++ q) = none := fun q hq => by
      obtain ⟨name, more, rfl⟩ := List.exists_cons_of_ne_nil hq
      exact h.empty name more
    rw [mkdirAll_extend_concat h.trimmed hf, mkdirAll_extend_concat h.trimmed hf, hmkdir]
    simp only
    by_cases hnames : names = []
    · subst hnames
      have hdirs : ∀ q, q <+: [] → q ≠ [] → w.disk.get? (dir ++ q) = some .dir := fun q hq hq' =>
        absurd (List.prefix_nil.mp hq) hq'
      rw [Path.extend_nil, h.made]
      simp only [h.mkdir_of_free hf hdirs (hfree _ hne)]
    · have hclear : Clear w dir names := fun q _ hq => .inl (hfree q hq)
      have hmissing := h.mkdir_of_missing hf hclear ⟨names, List.prefix_rfl, hnames, hfree _ hnames⟩
      rw [ih hf.of_append hnames, hmissing]

/-- The directories above a file below are made as if the directory had been made first. -/
theorem mkdirParent_eq (h : Made v w p dir) {s : String} (hf : Follows p (names ++ [s]))
    (hne : names ≠ []) :
    v.mkdirParent (p.extend (names ++ [s])) = w.mkdirParent (p.extend (names ++ [s])) := by
  have hs := hf.proper s (List.mem_append_right _ (List.mem_singleton.mpr rfl))
  rw [mkdirParent, mkdirParent, h.trimmed.parent_extend hf.of_append.proper hs]
  simp only [h.mkdirAll_extend hf.of_append hne]

/-- Directories below an empty directory can be made; outside they change nothing. -/
theorem exists_extend (h : Made v w p dir) (hf : Follows p names) (hne : names ≠ []) :
    ∃ x, Made v x (p.extend names) (dir ++ names) ∧ Paved w x dir names := by
  have hclear : Clear w dir names := fun q _ hq => by
    obtain ⟨name, more, rfl⟩ := List.exists_cons_of_ne_nil hq
    exact .inl (h.empty name more)
  obtain ⟨x, hmade, hpaved⟩ := h.toLeads.mkdirAll_extend hf hne hclear
  have hgrown := mkdirAll_grown w (p.extend names)
  rw [hmade] at hgrown
  have hleads := h.toLeads.mono hgrown.within hgrown.cwd
  have htrimmed := h.trimmed.extend hf.proper
  have hadmissible := hf.admissible_extend h.trimmed h.admissible
  have hdir := hpaved.dirs names List.prefix_rfl hne
  refine ⟨x, ⟨⟨⟨htrimmed, hadmissible, ?_, hdir⟩, fun name more => ?_⟩, ?_⟩, hpaved⟩
  · obtain ⟨front, s, rfl⟩ := (List.eq_nil_or_concat' names).resolve_left hne
    have habove : ∀ q, q <+: front → q ≠ [] → x.disk.get? (dir ++ q) = some .dir := fun q hq hq' =>
      hpaved.dirs q (hq.trans (List.prefix_append ..)) hq'
    have hlocate := (hleads.locate_of_dirs hf habove true).2 _ hdir (by simp)
    rwa [locate, hadmissible] at hlocate
  · rw [hpaved.rest, List.append_assoc]
    · obtain ⟨t, rest, rfl⟩ := List.exists_cons_of_ne_nil hne
      exact h.empty t (rest ++ name :: more)
    · intro q hq _ heq
      have hlength := congrArg List.length heq
      have hle := hq.length_le
      simp only [List.length_append, List.length_cons] at hlength hle
      omega
  · rw [h.mkdirAll_extend hf hne, hmade]

end Made

end AppScaffold.Volume
