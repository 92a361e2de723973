import AppScaffold.Proofs.Disk.Sparing
import Mathlib.Data.List.Basic
import Mathlib.Tactic.Common

/-!
# Work that is confined

A path that goes down from another one leads through its names to a place below. Work on a disk is
confined to some places if files are new or changed only there, and if no directory is new but at
others. What is placed or written at the end of a path that goes down is confined to that end and to
directories on the way: above the path from which it goes down, at the end of that path, or below.
-/

namespace AppScaffold

open Disk

namespace Disk

variable {cur : Location} {todo : List Step} {segments names : List String}

/-- Steps that do not lead on lead nowhere. -/
theorem destination_of_not_moves (h : ∀ step ∈ todo, ¬step.Moves) : destination cur todo = cur := by
  induction todo with
  | nil => rfl
  | cons step todo ih =>
    have hrest := ih fun step' hstep => h step' (List.mem_cons_of_mem _ hstep)
    cases step with
    | stay | slash => exact hrest
    | name s => exact absurd trivial (h (.name s) List.mem_cons_self)
    | up => exact absurd trivial (h .up List.mem_cons_self)

/-- Segments that mean names are steps into the entries with these names. -/
theorem destination_segments (h : segments.filterMap Component.ofSegment = names.map .name) :
    .up ∉ segments.filterMap segmentStep ∧
      ∀ cur, destination cur (segments.filterMap segmentStep) = cur ++ names := by
  induction segments generalizing names with
  | nil =>
    obtain rfl : names = [] := by simpa using h
    exact ⟨by simp, by simp [destination]⟩
  | cons s segments ih =>
    by_cases hempty : s = ""
    · rw [List.filterMap_cons_none (by simp [segmentStep, hempty])]
      rw [List.filterMap_cons_none (by simp [Component.ofSegment, hempty])] at h
      exact ih h
    by_cases hdot : s = "."
    · rw [List.filterMap_cons_some (b := .stay) (by simp [segmentStep, hdot])]
      rw [List.filterMap_cons_none (by simp [Component.ofSegment, hdot])] at h
      simpa [destination, Step.advance] using ih h
    by_cases hup : s = ".."
    · rw [List.filterMap_cons_some (b := .up) (by simp [Component.ofSegment, hup])] at h
      obtain ⟨name, names, -, hname, -⟩ := List.map_eq_cons_iff.mp h.symm
      cases hname
    · rw [List.filterMap_cons_some (b := .name s) (by simp [segmentStep, hempty, hdot, hup])]
      rw [List.filterMap_cons_some (b := .name s)
        (by simp [Component.ofSegment, hempty, hdot, hup])] at h
      obtain ⟨name, names, rfl, hname, hrest⟩ := List.map_eq_cons_iff.mp h.symm
      obtain rfl := Component.name.inj hname
      obtain ⟨hno, hlead⟩ := ih hrest.symm
      refine ⟨by simpa using hno, fun cur => ?_⟩
      rw [List.append_cons]
      exact hlead (cur ++ [name])

end Disk

namespace Path

variable {root p q : Path} {names : List String}

/-- A path that goes down starts from the working directory. -/
theorem IsDownward.isAbsolute (h : p.IsDownward) : p.isAbsolute = false := by
  by_cases hnil : p.components = []
  · rw [eq_empty_of_components hnil]
    rfl
  · exact isAbsolute_of_first (isSegment_iff.mp (h.isSegment_first hnil)).1

/-- A path that goes down leads through its names. -/
theorem IsDownward.destination (h : p.IsDownward) :
    .up ∉ bareSteps p ∧ ∀ cur, Disk.destination cur (bareSteps p) = cur ++ p.names := by
  refine destination_segments ?_
  rw [← h.components]
  by_cases hnil : p.components = []
  · rw [eq_empty_of_components hnil]
    rfl
  · have hfirst := h.isSegment_first hnil
    rw [components_of_isSegment hfirst, List.filterMap_cons_some hfirst]

/-- A path that goes on from another one, through names. -/
structure LeadsDown (root p : Path) (names : List String) : Prop where
  /-- Both paths start from the same directory. -/
  start : p.isAbsolute = root.isAbsolute
  /-- The steps that come behind those of the other path go through the names. -/
  bare : ∃ below, bareSteps p = bareSteps root ++ below ∧ .up ∉ below ∧
    ∀ cur, Disk.destination cur below = cur ++ names

/-- Every path leads to itself. -/
theorem LeadsDown.refl (root : Path) : LeadsDown root root [] :=
  ⟨rfl, [], (List.append_nil _).symm, List.not_mem_nil, fun cur => (List.append_nil cur).symm⟩

/-- A path that goes down leads on. -/
theorem LeadsDown.join (h : LeadsDown root p names) (hq : q.IsDownward) :
    LeadsDown root (p.join q) (names ++ q.names) := by
  obtain ⟨below, hbare, hup, hnames⟩ := h.bare
  refine ⟨(isAbsolute_join hq.isAbsolute).trans h.start, below ++ bareSteps q, ?_, ?_, fun cur => ?_⟩
  · rw [bareSteps_join hq.isAbsolute, hbare, List.append_assoc]
  · rw [List.mem_append, not_or]
    exact ⟨hup, hq.destination.1⟩
  · rw [destination_append, hnames, hq.destination.2, List.append_assoc]

/-- A path that can be the path of a file. -/
structure NamesFile (p : Path) : Prop where
  /-- It is not empty. -/
  nonempty : p ≠ empty
  /-- It does not end with a slash. -/
  slash : ¬endsWithSlash p

/-- A path to which nothing is joined names no file. -/
theorem not_namesFile_join_empty (p : Path) : ¬(p.join empty).NamesFile := by
  rintro ⟨hne, hslash⟩
  by_cases hp : p = empty
  · rw [hp, empty_join] at hne
    exact hne rfl
  · obtain ⟨kept, hjoin, -⟩ := exists_join_eq (q := empty) hp rfl
    rw [hjoin] at hslash
    exact hslash (by simp [endsWithSlash, empty])

end Path

namespace Volume

variable {u v w : Volume} {root p : Path} {loc : Location} {names : List String}
  {files files' dirs dirs' : Location → Prop}

/-- A path that leads on from another one leads to a place below. -/
theorem place_of_leadsDown (h : Path.LeadsDown root p names) : v.place p = v.place root ++ names := by
  obtain ⟨below, hbare, -, hnames⟩ := h.bare
  have hstart : v.start p = v.start root := by rw [start, start, h.start]
  rw [place_eq_destination, place_eq_destination, hstart, hbare, destination_append, hnames]

/-- The place is on the way to the end of a path, at the end or below. -/
def Along (v : Volume) (p : Path) (loc : Location) : Prop := v.Above p loc ∨ v.place p <+: loc

/-- The way of a path that leads on from another one is along that one. -/
theorem along_of_leadsDown (h : Path.LeadsDown root p names) (habove : v.Above p loc) :
    v.Along root loc := by
  obtain ⟨below, hbare, hup, -⟩ := h.bare
  obtain ⟨front, back, hsteps, -, rfl⟩ := habove
  have hstart : v.start p = v.start root := by rw [start, start, h.start]
  rw [Disk.steps, hbare, List.append_assoc] at hsteps
  rw [hstart]
  -- the way is cut behind the steps of the root, or in them
  rcases List.append_eq_append_iff.mp hsteps with ⟨more, rfl, hmore⟩ | ⟨left, hroot, -⟩
  · refine .inr ?_
    rw [place_eq_destination, destination_append]
    refine prefix_destination fun hmem => ?_
    have hmem' : .up ∈ below ++ if endsWithSlash p then [Step.slash] else [] := by
      rw [hmore]
      exact List.mem_append_left _ hmem
    rcases List.mem_append.mp hmem' with hmem | hmem
    · exact hup hmem
    · split_ifs at hmem <;> simp at hmem
  · by_cases hmoves : ∃ step ∈ left, step.Moves
    · obtain ⟨step, hstep, hmoves⟩ := hmoves
      refine .inl ⟨front, left ++ if endsWithSlash root then [.slash] else [], ?_,
        ⟨step, List.mem_append_left _ hstep, hmoves⟩, rfl⟩
      rw [Disk.steps, hroot, List.append_assoc]
    · have hend : v.place root = destination (v.start root) front := by
        rw [place_eq_destination, hroot, destination_append,
          destination_of_not_moves fun step hstep hmove => hmoves ⟨step, hstep, hmove⟩]
      exact .inr (hend ▸ List.prefix_rfl)

/-- Where the disks differ there is now a file at one of the places `files`, or a new directory at one of
the places `dirs`. -/
def Confined (files dirs : Location → Prop) (v w : Volume) : Prop :=
  ∀ loc, w.disk.get? loc ≠ v.disk.get? loc →
    (∃ c, w.disk.get? loc = some (.file c)) ∧ files loc ∨
      (v.disk.get? loc = none ∧ w.disk.get? loc = some .dir) ∧ dirs loc

namespace Confined

/-- Nothing is done. -/
theorem refl (v : Volume) : Confined files dirs v v := fun _ hne => absurd rfl hne

/-- The places can be told more loosely. -/
theorem mono (h : Confined files dirs v w) (hfiles : ∀ loc, files loc → files' loc)
    (hdirs : ∀ loc, dirs loc → dirs' loc) : Confined files' dirs' v w := fun loc hne =>
  (h loc hne).imp (And.imp_right (hfiles loc)) (And.imp_right (hdirs loc))

/-- Work is done in two parts. -/
theorem trans (h : Confined files dirs u v) (h' : Confined files dirs v w) :
    Confined files dirs u w := by
  intro loc hne
  by_cases hlater : w.disk.get? loc = v.disk.get? loc
  · rw [hlater] at hne ⊢
    exact h loc hne
  · rcases h' loc hlater with hfile | ⟨⟨hfree, hdir⟩, hloc⟩
    · exact .inl hfile
    · refine .inr ⟨⟨?_, hdir⟩, hloc⟩
      -- the first part takes nothing away, so what was free in between was free before
      by_contra hthere
      rcases h loc (by rw [hfree]; exact Ne.symm hthere) with ⟨⟨c, hfile⟩, -⟩ | ⟨⟨-, hmade⟩, -⟩
      · rw [hfree] at hfile
        cases hfile
      · rw [hfree] at hmade
        cases hmade

end Confined

/-- Work that only adds is confined to the places where something may be added. -/
theorem Added.confined {allowed : Location → Entry → Prop} (h : Added allowed v w)
    (hallowed : ∀ loc e, w.disk.get? loc = some e → allowed loc e →
      (∃ c, e = .file c) ∧ files loc ∨ e = .dir ∧ dirs loc) : Confined files dirs v w := by
  intro loc hne
  cases hnow : w.disk.get? loc with
  | none =>
    cases hold : v.disk.get? loc with
    | none => exact absurd (hnow.trans hold.symm) hne
    | some e =>
      rw [h.within loc e hold] at hnow
      cases hnow
  | some e =>
    have hfree : v.disk.get? loc = none := by
      by_contra hthere
      obtain ⟨e', hold⟩ := Option.ne_none_iff_exists'.mp hthere
      exact hne ((h.within loc e' hold).trans hold.symm)
    rcases hallowed loc e hnow (h.only loc e hfree hnow) with ⟨⟨c, rfl⟩, hloc⟩ | ⟨rfl, hloc⟩
    · exact .inl ⟨⟨c, rfl⟩, hloc⟩
    · exact .inr ⟨⟨hfree, rfl⟩, hloc⟩

/-- The making of directories above a path is confined to its way. -/
theorem mkdirParent_confined (h : v.IsPlain) (p : Path) :
    Confined files (v.Above p) v (v.mkdirParent p).2 :=
  (mkdirParent_added h p).confined fun _ _ _ => .inr

/-- The placing of files is confined to their places and to the ways there. -/
theorem placeFiles_confined (h : v.IsPlain) (root : Path) (fs : List GeneratedFile) :
    Confined (fun loc => ∃ f ∈ fs, v.place (root.join f.path) = loc)
      (fun loc => ∃ f ∈ fs, v.Above (root.join f.path) loc) v (v.placeFiles root fs).2 := by
  have hfiled := placeFiles_filed h root fs
  refine hfiled.added.confined fun loc e he hallowed => ?_
  rcases hallowed with hdir | ⟨p, hp, rfl⟩
  · exact .inr hdir
  · obtain ⟨f, hf, rfl, -, hfile⟩ := hfiled.created p hp
    exact .inl ⟨⟨_, Option.some.inj (he.symm.trans hfile)⟩, f, hf, rfl⟩

/-- The writing of a file is confined to its place. -/
theorem writeFile_confined (h : v.disk.LinkFree) (p : Path) (s : String) :
    Confined (fun loc => v.place p = loc ∧ p.NamesFile) dirs v (v.writeFile p s).2 := by
  rcases writeFile_cases h p s with ⟨e, hwrite⟩ | ⟨hwrite, hthere⟩
  · rw [hwrite]
    exact .refl v
  · have hpassable := isPassable_of_writeFile hwrite
    have hnames : p.NamesFile := by
      refine ⟨?_, fun hslash => ?_⟩
      · rintro rfl
        exact absurd hpassable.admissible (by decide)
      · rw [writeFile, if_pos hslash] at hwrite
        cases hwrite
    rw [hwrite]
    intro loc hne
    rw [Volume.set, get?_set _ _ _ _ (place_ne_nil hthere)] at hne ⊢
    split_ifs at hne ⊢ with hloc
    · exact .inl ⟨⟨_, rfl⟩, hloc.symm, hnames⟩
    · exact absurd rfl hne

end Volume

end AppScaffold
