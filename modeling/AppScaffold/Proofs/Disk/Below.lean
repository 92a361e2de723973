import AppScaffold.Proofs.Disk.Extending
import AppScaffold.Proofs.Disk.Writing
import Mathlib.Data.List.Basic
import Mathlib.Data.List.Induction
import Mathlib.Tactic.Common

/-!
# Directories below a directory

The directories on a way below a directory can be made whenever nothing but directories is there
already. Afterwards they are there, and everything else is as before.
-/

namespace AppScaffold.Volume

open Disk

/-- A path leads to a directory, whatever links it goes through. -/
structure Leads (v : Volume) (p : Path) (dir : Location) : Prop where
  /-- The path ends with a segment that means something. -/
  trimmed : p.IsTrimmed
  /-- It can be handed to the file system. -/
  admissible : admissible p = .ok ()
  /-- It leads to the directory. -/
  walk : v.disk.walk true linkLimit (if p.isAbsolute then [] else v.cwd) (bareSteps p) =
    .ok (.found dir)
  /-- The directory is there. -/
  there : v.disk.get? dir = some .dir

/-- There is nothing but directories on the way. -/
def Clear (v : Volume) (dir : Location) (names : List String) : Prop :=
  ∀ q, q <+: names → q ≠ [] → v.disk.get? (dir ++ q) = none ∨ v.disk.get? (dir ++ q) = some .dir

/-- The directories on a way have been made, and nothing else. -/
structure Paved (v w : Volume) (dir : Location) (names : List String) : Prop where
  /-- Relative paths start from the same directory. -/
  cwd : w.cwd = v.cwd
  /-- The directories are there. -/
  dirs : ∀ q, q <+: names → q ≠ [] → w.disk.get? (dir ++ q) = some .dir
  /-- Everything else is as before. -/
  rest : ∀ loc, (∀ q, q <+: names → q ≠ [] → loc ≠ dir ++ q) → w.disk.get? loc = v.disk.get? loc

/-- A path that leads to a directory does so also when entries have been added. -/
theorem Leads.mono {v w : Volume} {p : Path} {dir : Location} (h : Leads v p dir)
    (hwithin : Within v.disk w.disk) (hcwd : w.cwd = v.cwd) : Leads w p dir where
  trimmed := h.trimmed
  admissible := h.admissible
  walk := by
    rw [hcwd]
    exact hwithin.walk_found h.walk
  there := hwithin _ _ h.there

namespace Leads

variable {v : Volume} {p : Path} {dir : Location} {names : List String}

/-- Names that follow a path are looked up below its directory. -/
theorem locate_eq (h : Leads v p dir) (hf : Follows p names) (hne : names ≠ []) (follow : Bool) :
    ∃ links, v.disk.locate v.cwd follow (p.extend names) (bareSteps (p.extend names)) =
        v.disk.walk follow links dir (names.map .name) ∧
      Disk.steps (p.extend names) = bareSteps (p.extend names) := by
  obtain ⟨hbare, hsteps⟩ := h.trimmed.steps_extend hf.proper
  have hmap : names.map Step.name ≠ [] := by simpa using hne
  obtain ⟨links, hwalk⟩ := walk_append h.walk h.there hmap follow
  refine ⟨links, ?_, hsteps.trans hbare.symm⟩
  rw [locate, hf.admissible_extend h.trimmed h.admissible, hbare, h.trimmed.isAbsolute_extend]
  exact hwalk

variable {s : String}

/-- Where the directories are there a path leads to its entry, or to its free name. -/
theorem locate_of_dirs (h : Leads v p dir) (hf : Follows p (names ++ [s]))
    (hdirs : ∀ q, q <+: names → q ≠ [] → v.disk.get? (dir ++ q) = some .dir) (follow : Bool) :
    (v.disk.get? (dir ++ (names ++ [s])) = none →
      v.disk.locate v.cwd follow (p.extend (names ++ [s])) (bareSteps (p.extend (names ++ [s]))) =
        .ok (.free (dir ++ names) s false)) ∧
    ∀ e, v.disk.get? (dir ++ (names ++ [s])) = some e → (∀ target, e ≠ .link target) →
      v.disk.locate v.cwd follow (p.extend (names ++ [s])) (bareSteps (p.extend (names ++ [s]))) =
        .ok (.found (dir ++ (names ++ [s]))) := by
  obtain ⟨links, hlocate, -⟩ := h.locate_eq hf (by simp) follow
  have hshort : ∀ t ∈ names, t.utf8ByteSize ≤ nameLimit := fun t ht =>
    (hf.proper t (List.mem_append_left _ ht)).short
  have hlimit : ¬nameLimit < s.utf8ByteSize :=
    Nat.not_lt_of_le (hf.proper s (List.mem_append_right _ (List.mem_singleton.mpr rfl))).short
  rw [hlocate, List.map_append, List.map_singleton, walk_dirs hshort hdirs, ← List.append_assoc]
  refine ⟨fun hnone => ?_, fun e he hlink => ?_⟩
  · rw [walk.eq_def]
    simp only [if_neg hlimit, hnone]
  · cases e with
    | dir => rw [walk_dir hlimit he, Disk.walk]
    | file c =>
      rw [walk_file hlimit he]
      rfl
    | link target => exact absurd rfl (hlink target)

/-- Where a directory is missing a path leads nowhere. -/
theorem locate_of_missing (h : Leads v p dir) (hf : Follows p (names ++ [s]))
    (hclear : Clear v dir names)
    (hmissing : ∃ q, q <+: names ∧ q ≠ [] ∧ v.disk.get? (dir ++ q) = none) (follow : Bool) :
    v.disk.locate v.cwd follow (p.extend (names ++ [s])) (bareSteps (p.extend (names ++ [s]))) =
      .error .notFound := by
  obtain ⟨links, hlocate, -⟩ := h.locate_eq hf (by simp) follow
  have hshort : ∀ t ∈ names, t.utf8ByteSize ≤ nameLimit := fun t ht =>
    (hf.proper t (List.mem_append_left _ ht)).short
  rw [hlocate, List.map_append, List.map_singleton]
  exact walk_missing hshort hclear hmissing

end Leads

/-- The way to a directory is clear, or one of its directories is missing. -/
theorem Clear.cases {v : Volume} {dir : Location} {names : List String} (h : Clear v dir names) :
    (∀ q, q <+: names → q ≠ [] → v.disk.get? (dir ++ q) = some .dir) ∨
      ∃ q, q <+: names ∧ q ≠ [] ∧ v.disk.get? (dir ++ q) = none := by
  by_cases hmissing : ∃ q, q <+: names ∧ q ≠ [] ∧ v.disk.get? (dir ++ q) = none
  · exact .inr hmissing
  · refine .inl fun q hq hne => (h q hq hne).resolve_left fun hnone => ?_
    exact hmissing ⟨q, hq, hne, hnone⟩

/-- Making a directory goes on to its parents only if they are missing. -/
theorem mkdirAll_eq {p q : Path} (hparent : p.parent = some q)
    (hlength : p.rest.length = q.rest.length + 1) (hne : p ≠ Path.empty) (v : Volume) :
    v.mkdirAll p =
      match v.mkdir p with
      | (.ok (), w) => (.ok (), w)
      | (.error .notFound, _) =>
        match v.mkdirAll q with
        | (.error e, w) => (.error e, w)
        | (.ok (), w) =>
          match w.mkdir p with
          | (.ok (), w') => (.ok (), w')
          | (.error e, _) => if w.isDir p then (.ok (), w) else (.error e, w)
      | (.error e, _) => if v.isDir p then (.ok (), v) else (.error e, v) := by
  rw [mkdirAll, hlength, chain, hparent]
  simp only
  rw [mkdirChain, if_neg hne]
  rfl

namespace Leads

variable {v : Volume} {p : Path} {dir : Location} {names : List String} {s : String}

/-- A directory is made at a free name in a directory. -/
theorem mkdir_of_free (h : Leads v p dir) (hf : Follows p (names ++ [s]))
    (hdirs : ∀ q, q <+: names → q ≠ [] → v.disk.get? (dir ++ q) = some .dir)
    (hnone : v.disk.get? (dir ++ (names ++ [s])) = none) :
    v.mkdir (p.extend (names ++ [s])) = (.ok (), v.set (dir ++ (names ++ [s])) .dir) := by
  rw [mkdir, (h.locate_of_dirs hf hdirs false).1 hnone]
  simp only [List.append_assoc]

/-- A directory that is there is not made again. -/
theorem mkdir_of_dir (h : Leads v p dir) (hf : Follows p (names ++ [s]))
    (hdirs : ∀ q, q <+: names ++ [s] → q ≠ [] → v.disk.get? (dir ++ q) = some .dir) :
    v.mkdir (p.extend (names ++ [s])) = (.error .exists, v) ∧
      v.isDir (p.extend (names ++ [s])) = true := by
  have hbelow : ∀ q, q <+: names → q ≠ [] → v.disk.get? (dir ++ q) = some .dir := fun q hq =>
    hdirs q (hq.trans (List.prefix_append ..))
  have hdir := hdirs _ List.prefix_rfl (by simp)
  have hlocate := fun follow => (h.locate_of_dirs hf hbelow follow).2 _ hdir (by simp)
  obtain ⟨-, -, hsteps⟩ := h.locate_eq hf (by simp) true
  refine ⟨by rw [mkdir, hlocate], ?_⟩
  rw [isDir, find?, hsteps, hlocate]
  simp only [hdir]

/-- A directory is not made where the one above it is missing. -/
theorem mkdir_of_missing (h : Leads v p dir) (hf : Follows p (names ++ [s]))
    (hclear : Clear v dir names)
    (hmissing : ∃ q, q <+: names ∧ q ≠ [] ∧ v.disk.get? (dir ++ q) = none) :
    v.mkdir (p.extend (names ++ [s])) = (.error .notFound, v) := by
  rw [mkdir, h.locate_of_missing hf hclear hmissing]

end Leads

/-- A way is made up to its parent, and then its last directory. -/
theorem mkdirAll_extend_concat {p : Path} (h : p.IsTrimmed) {names : List String} {s : String}
    (hf : Follows p (names ++ [s])) (v : Volume) :
    v.mkdirAll (p.extend (names ++ [s])) =
      match v.mkdir (p.extend (names ++ [s])) with
      | (.ok (), w) => (.ok (), w)
      | (.error .notFound, _) =>
        match v.mkdirAll (p.extend names) with
        | (.error e, w) => (.error e, w)
        | (.ok (), w) =>
          match w.mkdir (p.extend (names ++ [s])) with
          | (.ok (), w') => (.ok (), w')
          | (.error e, _) =>
            if w.isDir (p.extend (names ++ [s])) then (.ok (), w) else (.error e, w)
      | (.error e, _) =>
        if v.isDir (p.extend (names ++ [s])) then (.ok (), v) else (.error e, v) := by
  have hs := hf.proper s (List.mem_append_right _ (List.mem_singleton.mpr rfl))
  refine mkdirAll_eq (h.parent_extend hf.of_append.proper hs) ?_ (h.extend hf.proper).ne_empty v
  simp [Path.extend, Nat.add_assoc]

/-- Where the directories above are there, the last directory of a way is made or is there. -/
theorem Leads.paved_of_dirs {v : Volume} {p : Path} {dir : Location} {names : List String}
    {s : String} (h : Leads v p dir) (hf : Follows p (names ++ [s]))
    (hdirs : ∀ q, q <+: names → q ≠ [] → v.disk.get? (dir ++ q) = some .dir)
    (hlast : v.disk.get? (dir ++ (names ++ [s])) = none ∨
      v.disk.get? (dir ++ (names ++ [s])) = some .dir) :
    ∃ w, Paved v w dir (names ++ [s]) ∧
      (v.mkdir (p.extend (names ++ [s])) = (.ok (), w) ∨
        v.mkdir (p.extend (names ++ [s])) = (.error .exists, w) ∧ w = v ∧
          v.isDir (p.extend (names ++ [s])) = true) := by
  have hpref : ∀ q, q <+: names ++ [s] → q = names ++ [s] ∨ q <+: names := fun q hq =>
    List.prefix_concat_iff.mp hq
  rcases hlast with hnone | hdir
  · have hne : dir ++ (names ++ [s]) ≠ [] := by simp
    have hget := fun loc => get?_set v.disk (dir ++ (names ++ [s])) loc .dir hne
    refine ⟨v.set (dir ++ (names ++ [s])) .dir, ⟨rfl, fun q hq hqne => ?_, fun loc hloc => ?_⟩,
      .inl (h.mkdir_of_free hf hdirs hnone)⟩
    · rw [set, hget]
      split_ifs with heq
      · rfl
      · refine hdirs q ((hpref q hq).resolve_left ?_) hqne
        rintro rfl
        exact heq rfl
    · rw [set, hget, if_neg (hloc _ List.prefix_rfl (by simp))]
  · have hall : ∀ q, q <+: names ++ [s] → q ≠ [] → v.disk.get? (dir ++ q) = some .dir := by
      intro q hq hqne
      rcases hpref q hq with rfl | hq
      · exact hdir
      · exact hdirs q hq hqne
    obtain ⟨hmkdir, hisDir⟩ := h.mkdir_of_dir hf hall
    exact ⟨v, ⟨rfl, hall, fun _ _ => rfl⟩, .inr ⟨hmkdir, rfl, hisDir⟩⟩

/-- What has been paved in two steps has been paved. -/
theorem Paved.trans {u v w : Volume} {dir : Location} {names names' : List String}
    (h : Paved u v dir names) (h' : Paved v w dir (names ++ names')) :
    Paved u w dir (names ++ names') where
  cwd := h'.cwd.trans h.cwd
  dirs := h'.dirs
  rest loc hloc := by
    rw [h'.rest loc hloc, h.rest loc fun q hq => hloc q (hq.trans (List.prefix_append ..))]

/-- Nothing but directories is on a way that has been paved. -/
theorem Paved.clear {v w : Volume} {dir : Location} {names names' : List String}
    (h : Paved v w dir names) (hclear : Clear v dir names') : Clear w dir names' := by
  intro q hq hqne
  by_cases hpaved : ∃ q', q' <+: names ∧ q' ≠ [] ∧ dir ++ q = dir ++ q'
  · obtain ⟨q', hq', hne, heq⟩ := hpaved
    rw [heq]
    exact .inr (h.dirs q' hq' hne)
  · rw [h.rest _ fun q' hq' hne heq => hpaved ⟨q', hq', hne, heq⟩]
    exact hclear q hq hqne

/-- The directories on a clear way can be made. -/
theorem Leads.mkdirAll_extend {v : Volume} {p : Path} {dir : Location} (h : Leads v p dir)
    {names : List String} (hf : Follows p names) (hne : names ≠ []) (hclear : Clear v dir names) :
    ∃ w, v.mkdirAll (p.extend names) = (.ok (), w) ∧ Paved v w dir names := by
  induction names using List.reverseRecOn with
  | nil => exact absurd rfl hne
  | append_singleton names s ih =>
    have hbelow : Clear v dir names := fun q hq => hclear q (hq.trans (List.prefix_append ..))
    have hlast := hclear _ List.prefix_rfl (by simp)
    rw [mkdirAll_extend_concat h.trimmed hf]
    rcases hbelow.cases with hdirs | hmissing
    · obtain ⟨w, hpaved, hmkdir | ⟨hmkdir, rfl, hisDir⟩⟩ := h.paved_of_dirs hf hdirs hlast
      · exact ⟨w, by rw [hmkdir], hpaved⟩
      · exact ⟨w, by rw [hmkdir]; simp only [hisDir, if_true], hpaved⟩
    · -- the directories above are made first
      have hnames : names ≠ [] := by
        rintro rfl
        obtain ⟨q, hq, hqne, -⟩ := hmissing
        exact hqne (List.prefix_nil.mp hq)
      obtain ⟨u, hmade, hpaved⟩ := ih hf.of_append hnames hbelow
      have hgrown := mkdirAll_grown v (p.extend names)
      rw [hmade] at hgrown
      have hlast' := hpaved.clear hclear _ List.prefix_rfl (by simp)
      obtain ⟨w, hpaved', hmkdir | ⟨hmkdir, rfl, hisDir⟩⟩ :=
        (h.mono hgrown.within hgrown.cwd).paved_of_dirs hf hpaved.dirs hlast'
      · refine ⟨w, ?_, hpaved.trans hpaved'⟩
        rw [h.mkdir_of_missing hf hbelow hmissing]
        simp only [hmade, hmkdir]
      · refine ⟨w, ?_, hpaved.trans hpaved'⟩
        rw [h.mkdir_of_missing hf hbelow hmissing]
        simp only [hmade, hmkdir, hisDir, if_true]

end AppScaffold.Volume
