import AppScaffold.Proofs.Disk.Nested
import AppScaffold.Proofs.Disk.Passing
import AppScaffold.Proofs.Disk.Writing
import AppScaffold.Proofs.Path.Components
import Mathlib.Data.List.Basic
import Mathlib.Tactic.Common

/-!
# What is added where

A directory is made only on the way to a path, and a file only at the place that its path spells. A path
that goes up from nothing but directories leads to the same place before and after the directories above
it are made, and nothing is made at that place on the way.
-/

namespace AppScaffold

open Disk

namespace Disk

/-- A way goes up only from directories. -/
def Grounded (d : Disk) (cur : Location) (todo : List Step) : Prop :=
  ∀ front back, todo = front ++ .up :: back → d.get? (destination cur front) = some .dir

section Ways

variable {d : Disk} {cur : Location} {todo front back : List Step}

/-- Steps are taken one part after the other. -/
theorem destination_append (cur : Location) (front back : List Step) :
    destination cur (front ++ back) = destination (destination cur front) back := List.foldl_append

/-- Without steps upwards, a way that leads on does not end where it starts. -/
theorem destination_ne (hup : .up ∉ todo) {step : Step} (hstep : step ∈ todo) (hmoves : step.Moves) :
    destination cur todo ≠ cur := by
  cases step with
  | up => exact absurd hstep hup
  | stay | slash => exact hmoves.elim
  | name s =>
    obtain ⟨front, back, rfl⟩ := List.append_of_mem hstep
    rw [List.mem_append, List.mem_cons, not_or, not_or] at hup
    have hfront : cur <+: destination cur front := prefix_destination hup.1
    have hback : destination cur front ++ [s] <+: destination cur (front ++ .name s :: back) := by
      rw [destination_append]
      exact prefix_destination hup.2.2
    intro heq
    have hlength := hback.length_le
    rw [heq, List.length_append, List.length_singleton] at hlength
    exact absurd hfront.length_le (by omega)

/-- What a way that goes up later goes through before is a directory. -/
theorem Grounded.get?_eq_dir (hd : d.Plain) (h : d.Grounded cur (front ++ back)) (hup : .up ∈ back) :
    d.get? (destination cur front) = some .dir := by
  obtain ⟨between, rest, rfl, hno⟩ := List.eq_append_cons_of_mem hup
  have hdir := h (front ++ between) rest (List.append_assoc ..).symm
  rw [destination_append] at hdir
  have hbelow : destination cur front <+: destination (destination cur front) between :=
    prefix_destination hno
  by_cases hsame : destination cur front = destination (destination cur front) between
  · rw [hsame]
    exact hdir
  · exact hd.rooted _ _ hdir _ hbelow hsame

end Ways

end Disk

namespace Path

variable {p q : Path}

/-- `q` heads `p`: the way to `p` begins with the way to `q`. -/
structure Heads (q p : Path) : Prop where
  /-- Both start from the same directory. -/
  start : q.isAbsolute = p.isAbsolute
  /-- The steps of the one come first in the steps of the other. -/
  steps : bareSteps q <+: bareSteps p

/-- Every path heads itself. -/
theorem Heads.refl (p : Path) : Heads p p := ⟨rfl, List.prefix_rfl⟩

/-- What heads a head heads the whole. -/
theorem Heads.trans {r : Path} (h : Heads r q) (h' : Heads q p) : Heads r p :=
  ⟨h.start.trans h'.start, h.steps.trans h'.steps⟩

/-- A segment that is not idle leads on. -/
theorem exists_moves_of_idle {s : String} (h : idle s = false) :
    ∃ step, segmentStep s = some step ∧ step.Moves := by
  simp only [idle, Bool.or_eq_false_iff, decide_eq_false_iff_not] at h
  rw [segmentStep, if_neg h.1, if_neg h.2]
  split_ifs
  · exact ⟨_, rfl, trivial⟩
  · exact ⟨_, rfl, trivial⟩

/-- The steps of a path that is put together again are those of the segments that are kept. -/
theorem bareSteps_ofReversed (first : String) (segments : List String) :
    bareSteps (ofReversed first segments) =
      (first :: (segments.dropWhile idle).reverse).filterMap segmentStep := by
  unfold ofReversed
  split
  · rename_i hnone
    rw [hnone]
    rfl
  · rfl

/-- A path that is put together again is absolute if nothing stands before its first slash. -/
theorem isAbsolute_ofReversed (first : String) (segments : List String) :
    (ofReversed first segments).isAbsolute = decide (first = "") := by
  by_cases hfirst : first = ""
  · subst hfirst
    unfold ofReversed
    cases segments.dropWhile idle with
    | nil => rfl
    | cons s kept => simp [isAbsolute]
  · rw [ofReversed]
    · simp [isAbsolute, hfirst]
    · exact fun hroot _ => hfirst hroot

/-- Behind the last segment that is not idle there are only idle ones. -/
theorem exists_rest_eq {s : String} {before : List String}
    (h : p.rest.reverse.dropWhile idle = s :: before) :
    ∃ idles, p.rest = before.reverse ++ s :: idles := by
  have hparts := List.takeWhile_append_dropWhile (p := idle) (l := p.rest.reverse)
  rw [h] at hparts
  exact ⟨_, by simpa using (congrArg List.reverse hparts).symm⟩

/-- The parent of a path heads it, and the path leads on from there unless the parent is empty. -/
theorem heads_of_parent (h : p.parent = some q) :
    Heads q p ∧
      (q = empty ∨ ∃ back, bareSteps p = bareSteps q ++ back ∧ ∃ step ∈ back, step.Moves) := by
  unfold parent at h
  split at h
  · rename_i s before hdrop
    obtain rfl := Option.some.inj h
    obtain ⟨idles, hrest⟩ := exists_rest_eq hdrop
    have hkept : before.reverse =
        (before.dropWhile idle).reverse ++ (before.takeWhile idle).reverse := by
      rw [← List.reverse_append, List.takeWhile_append_dropWhile]
    obtain ⟨step, hstep, hmoves⟩ := exists_moves_of_idle (idle_of_dropWhile hdrop)
    have hsteps : bareSteps p = bareSteps (ofReversed p.first before) ++
        ((before.takeWhile idle).reverse.filterMap segmentStep ++
          step :: idles.filterMap segmentStep) := by
      rw [bareSteps_ofReversed, bareSteps, hrest, hkept, List.append_assoc, ← List.cons_append,
        List.filterMap_append, List.filterMap_append, List.filterMap_cons_some hstep]
    refine ⟨⟨?_, ?_⟩, .inr ⟨_, hsteps, step, by simp, hmoves⟩⟩
    · rw [isAbsolute_ofReversed, isAbsolute, hrest]
      simp
    · rw [hsteps]
      exact List.prefix_append ..
  · split_ifs at h with hroot
    obtain rfl := Option.some.inj h
    refine ⟨⟨?_, List.nil_prefix⟩, .inl rfl⟩
    simp [isAbsolute, empty, hroot]

end Path

namespace Volume

variable {u v w : Volume} {p q : Path} {allowed : Location → Entry → Prop}

/-- All members of a chain head its path. -/
theorem heads_of_mem_chain {n : Nat} (h : q ∈ chain n p) : Path.Heads q p := by
  induction n generalizing p with
  | zero =>
    rw [List.mem_singleton.mp h]
    exact .refl p
  | succ n ih =>
    rw [chain] at h
    split at h
    · rename_i parent hparent
      rcases List.mem_cons.mp h with rfl | hmem
      · exact .refl q
      · exact (ih hmem).trans (Path.heads_of_parent hparent).1
    · rw [List.mem_singleton.mp h]
      exact .refl p

/-- A disk without links, on which every entry lies in directories, and a directory from which relative
paths start. -/
structure IsPlain (v : Volume) : Prop where
  /-- There are no links, and the directories above each entry are there. -/
  disk : v.disk.Plain
  /-- Relative paths start from a directory. -/
  cwd : v.disk.get? v.cwd = some .dir

/-- The place is on the way to a path, which leads on from there. -/
def Above (v : Volume) (p : Path) (loc : Location) : Prop :=
  ∃ front back, Disk.steps p = front ++ back ∧ (∃ step ∈ back, step.Moves) ∧
    destination (v.start p) front = loc

/-- The path goes up only from directories. -/
def Grounded (v : Volume) (p : Path) : Prop := v.disk.Grounded (v.start p) (Disk.steps p)

/-- Paths start where they started before something was added. -/
theorem Grown.start_eq (h : Grown v w) (p : Path) : w.start p = v.start p := by
  rw [start, start, h.cwd]

/-- Paths lead where they led before something was added. -/
theorem Grown.place_eq (h : Grown v w) (p : Path) : w.place p = v.place p := by
  rw [place, place, h.cwd]

/-- The way to a path is what it was before something was added. -/
theorem Grown.above_iff (h : Grown v w) {loc : Location} : w.Above p loc ↔ v.Above p loc := by
  rw [Above, Above, h.start_eq]

/-- What is free was free before something was added. -/
theorem Grown.get?_eq_none (h : Grown v w) {loc : Location} (hfree : w.disk.get? loc = none) :
    v.disk.get? loc = none := by
  cases hbefore : v.disk.get? loc with
  | none => rfl
  | some e =>
    rw [h.within loc e hbefore] at hfree
    cases hfree

namespace IsPlain

/-- Every entry of a plain volume lies in directories. -/
theorem nested (h : v.IsPlain) : v.IsNested := ⟨h.disk.rooted, h.cwd⟩

/-- A path that can be followed leads to the place that it spells, and the place stands. -/
theorem location_of_locate (h : v.IsPlain) {follow : Bool} {todo : List Step} {place : Place}
    (hlocate : v.disk.locate v.cwd follow p todo = .ok place) :
    place.location = destination (v.start p) todo ∧ place.Stands v.disk := by
  have hstands := h.nested.stands_of_locate hlocate
  rw [locate] at hlocate
  split at hlocate
  · cases hlocate
  · exact ⟨h.disk.links.location_eq hlocate, hstands⟩

/-- An entry at a free name in a directory leaves the volume plain. -/
theorem set (h : v.IsPlain) {dir : Location} {name : String} {e : Entry}
    (hdir : v.disk.get? dir = some .dir) (hfree : v.disk.get? (dir ++ [name]) = none)
    (he : ∀ target, e ≠ .link target) : (v.set (dir ++ [name]) e).IsPlain := by
  have hnested : (v.set (dir ++ [name]) e).IsNested := h.nested.set hdir hfree
  exact ⟨⟨h.disk.links.set (by simp) he, hnested.disk⟩, hnested.cwd⟩

end IsPlain

/-- Entries have been added to a plain volume, each of them as allowed. -/
structure Added (allowed : Location → Entry → Prop) (v w : Volume) : Prop extends Grown v w where
  /-- The volume is still plain. -/
  plain : w.IsPlain
  /-- What is new is allowed. -/
  only : ∀ loc e, v.disk.get? loc = none → w.disk.get? loc = some e → allowed loc e

namespace Added

/-- Nothing has been added. -/
theorem refl (h : v.IsPlain) : Added allowed v v where
  toGrown := .refl v
  plain := h
  only loc e hnone he := by
    rw [hnone] at he
    cases he

/-- Entries have been added twice. -/
theorem trans (h : Added allowed u v) (h' : Added allowed v w) : Added allowed u w where
  toGrown := h.toGrown.trans h'.toGrown
  plain := h'.plain
  only loc e hnone he := by
    cases hv : v.disk.get? loc with
    | none => exact h'.only loc e hv he
    | some f =>
      have hsame := h'.within loc f hv
      rw [he] at hsame
      rw [Option.some.inj hsame]
      exact h.only loc f hnone hv

/-- What is allowed can be told more loosely. -/
theorem mono {allowed' : Location → Entry → Prop} (h : Added allowed v w)
    (hallowed : ∀ loc e, allowed loc e → allowed' loc e) : Added allowed' v w where
  toGrown := h.toGrown
  plain := h.plain
  only loc e hnone he := hallowed loc e (h.only loc e hnone he)

end Added

/-- At a place there is what was there, or a directory where nothing was. -/
def Unaltered (v w : Volume) (loc : Location) : Prop :=
  w.disk.get? loc = v.disk.get? loc ∨ v.disk.get? loc = none ∧ w.disk.get? loc = some .dir

/-- What is unaltered twice is unaltered. -/
theorem Unaltered.trans {u v w : Volume} {loc : Location} (h : Unaltered u v loc)
    (h' : Unaltered v w loc) : Unaltered u w loc := by
  rcases h with hsame | ⟨hnone, hdir⟩
  · rw [Unaltered, ← hsame]
    exact h'
  · rcases h' with hsame | ⟨hnone', -⟩
    · exact .inr ⟨hnone, hsame.trans hdir⟩
    · rw [hdir] at hnone'
      cases hnone'

/-- An entry at a place that is unaltered stays. -/
theorem Unaltered.get?_eq_some {loc : Location} {e : Entry} (h : Unaltered v w loc)
    (he : v.disk.get? loc = some e) : w.disk.get? loc = some e := by
  rcases h with hsame | ⟨hnone, -⟩
  · exact hsame.trans he
  · rw [hnone] at he
    cases he

/-- A file at a place that is unaltered was there before. -/
theorem Unaltered.get?_of_file {loc : Location} {c : Content} (h : Unaltered v w loc)
    (hfile : w.disk.get? loc = some (.file c)) : v.disk.get? loc = some (.file c) := by
  rcases h with hsame | ⟨-, hdir⟩
  · rw [← hsame]
    exact hfile
  · rw [hdir] at hfile
    cases hfile

/-- Where only directories may be added, a place is unaltered. -/
theorem Added.unaltered {allowed : Location → Entry → Prop} {v w : Volume}
    (h : Added allowed v w) {loc : Location} (hdir : ∀ e, allowed loc e → e = .dir) :
    Unaltered v w loc := by
  cases hbefore : v.disk.get? loc with
  | some e => exact .inl ((h.within loc e hbefore).trans hbefore.symm)
  | none =>
    cases hafter : w.disk.get? loc with
    | none => exact .inl (hafter.trans hbefore.symm)
    | some e =>
      rw [hdir e (h.only loc e hbefore hafter)] at hafter
      exact .inr ⟨hbefore, hafter⟩

/-- An entry has been added where a path ends at a free name. -/
theorem added_set (h : v.IsPlain) {follow : Bool} {todo : List Step} {dir : Location} {name : String}
    {slash : Bool} (hlocate : v.disk.locate v.cwd follow p todo = .ok (.free dir name slash))
    {e : Entry} (he : ∀ target, e ≠ .link target)
    (hallowed : allowed (destination (v.start p) todo) e) :
    Added allowed v (v.set (dir ++ [name]) e) where
  toGrown := grown_set (get?_of_locate_free hlocate) he
  plain := h.set (h.location_of_locate hlocate).2 (get?_of_locate_free hlocate) he
  only loc f hnone hf := by
    have hplace : dir ++ [name] = destination (v.start p) todo := (h.location_of_locate hlocate).1
    rw [set, get?_set _ _ _ _ (by simp)] at hf
    split_ifs at hf with hnew
    · rw [← Option.some.inj hf, hnew, hplace]
      exact hallowed
    · rw [hnone] at hf
      cases hf

/-- Only the directory itself is made. -/
theorem mkdir_added (h : v.IsPlain) (p : Path) :
    Added (fun loc e => e = .dir ∧ loc = destination (v.start p) (bareSteps p)) v (v.mkdir p).2 := by
  rw [mkdir]
  split
  · exact added_set h ‹_› (by simp) ⟨rfl, rfl⟩
  · exact .refl h
  · exact .refl h

/-- The directories of a chain, which ends at the empty path. -/
def OfChain (v : Volume) (chain : List Path) (loc : Location) (e : Entry) : Prop :=
  e = .dir ∧ ∃ q ∈ chain, q ≠ Path.empty ∧ loc = destination (v.start q) (bareSteps q)

/-- Only the directories of a chain are made. -/
theorem mkdirChain_added (h : v.IsPlain) (chain : List Path) :
    Added (v.OfChain chain) v (v.mkdirChain chain).2 := by
  have hresult := v.mkdirChain_chainOf chain
  generalize v.mkdirChain chain = result at hresult ⊢
  have hmore : ∀ {p : Path} {parents : List Path} (loc : Location) (e : Entry),
      v.OfChain parents loc e → v.OfChain (p :: parents) loc e := by
    rintro p parents loc e ⟨he, q, hq, hloc⟩
    exact ⟨he, q, List.mem_cons_of_mem _ hq, hloc⟩
  induction hresult with
  | nowhere | empty | there | barred => exact .refl h
  | @made _ p _ hp hmade =>
    have hfirst := mkdir_added h p
    rw [hmade] at hfirst
    exact hfirst.mono fun _ _ hnew => ⟨hnew.1, p, List.mem_cons_self, hp, hnew.2⟩
  | unpaved _ _ _ ih | thereAfter _ _ _ _ _ ih | barredAfter _ _ _ _ _ ih =>
    exact ih.mono hmore
  | @madeAfter _ w _ p _ hp _ _ hagain ih =>
    have hrest := ih.mono (hmore (p := p))
    have hlast := mkdir_added hrest.plain p
    rw [hagain] at hlast
    exact hrest.trans (hlast.mono fun _ _ hnew =>
      ⟨hnew.1, p, List.mem_cons_self, hp, by rw [hnew.2, hrest.start_eq]⟩)

/-- Only directories on the way to a path are made above it. -/
theorem mkdirParent_added (h : v.IsPlain) (p : Path) :
    Added (fun loc e => e = .dir ∧ v.Above p loc) v (v.mkdirParent p).2 := by
  have habove : ∀ {dir : Path}, p.parent = some dir →
      Added (fun loc e => e = .dir ∧ v.Above p loc) v (v.mkdirAll dir).2 := by
    intro dir hparent
    obtain ⟨hheads, rfl | ⟨back, hback, hmoves⟩⟩ := Path.heads_of_parent hparent
    · exact .refl h
    · refine (mkdirChain_added h _).mono ?_
      rintro loc e ⟨he, q, hq, -, hloc⟩
      refine ⟨he, ?_⟩
      have hq := heads_of_mem_chain hq
      obtain ⟨between, hbetween⟩ := hq.steps
      obtain ⟨step, hstep, hmoves⟩ := hmoves
      refine ⟨bareSteps q, between ++ (back ++ if endsWithSlash p then [.slash] else []), ?_,
        ⟨step, ?_, hmoves⟩, ?_⟩
      · rw [Disk.steps, hback, ← hbetween]
        simp only [List.append_assoc]
      · exact List.mem_append_right _ (List.mem_append_left _ hstep)
      · rw [hloc, start, start, (hq.trans hheads).start]
  have hresult := v.mkdirParent_parentOf p
  generalize v.mkdirParent p = result at hresult ⊢
  cases hresult with
  | top => exact .refl h
  | paved hparent hall | unpaved hparent hall =>
    have hadded := habove hparent
    rwa [hall] at hadded

namespace Grounded

/-- Where a grounded path has its end also on its way, there is a directory. -/
theorem get?_of_above (h : v.IsPlain) (hp : v.Grounded p) (habove : v.Above p (v.place p)) :
    v.disk.get? (v.place p) = some .dir := by
  obtain ⟨front, back, hsteps, ⟨step, hstep, hmoves⟩, hloc⟩ := habove
  have hplace : v.place p = destination (destination (v.start p) front) back := by
    rw [← destination_append, ← hsteps]
    rfl
  by_cases hup : .up ∈ back
  · rw [← hloc]
    refine Disk.Grounded.get?_eq_dir h.disk ?_ hup
    rw [← hsteps]
    exact hp
  · rw [hloc] at hplace
    exact absurd hplace.symm (destination_ne hup hstep hmoves)

/-- The making of the directories above a grounded path leaves what is at its end. -/
theorem get?_mkdirParent (h : v.IsPlain) (hp : v.Grounded p) :
    (v.mkdirParent p).2.disk.get? (v.place p) = v.disk.get? (v.place p) := by
  have hadded := mkdirParent_added h p
  cases hbefore : v.disk.get? (v.place p) with
  | some e => exact hadded.within _ e hbefore
  | none =>
    cases hafter : (v.mkdirParent p).2.disk.get? (v.place p) with
    | none => rfl
    | some e =>
      have hdir := hp.get?_of_above h (hadded.only _ e hbefore hafter).2
      rw [hbefore] at hdir
      cases hdir

/-- A grounded path that leads to a file when entries have been added did so before, if the file was
there. -/
theorem locate_file (h : v.IsPlain) (hgrown : Grown v u) (hp : v.Grounded p) {c : Content}
    (hfile : v.disk.get? (v.place p) = some (.file c))
    (hfound : u.disk.locate u.cwd true p (Disk.steps p) = .ok (.found (v.place p))) :
    v.disk.locate v.cwd true p (Disk.steps p) = .ok (.found (v.place p)) := by
  rw [locate] at hfound ⊢
  split at hfound
  · cases hfound
  · rw [hgrown.cwd] at hfound
    refine hgrown.within.walk_back (hgrown.links h.disk.links) (fun front back hsteps hup => ?_) hfile
      (h.disk.rooted _ _ hfile) hfound
    refine Disk.Grounded.get?_eq_dir h.disk ?_ hup
    rw [← hsteps]
    exact hp

end Grounded

end Volume

end AppScaffold
