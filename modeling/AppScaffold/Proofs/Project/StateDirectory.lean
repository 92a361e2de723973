import AppScaffold.Proofs.Disk.Sparing
import AppScaffold.Proofs.Project.Difference
import AppScaffold.Proofs.Project.Isolation
import AppScaffold.Proofs.Project.Success
import AppScaffold.Proofs.Project.TemplatePaths

/-!
# The directory of the state stays the same

The directory of the state is looked up on the disk each time it is needed, and it may be there with
a capital letter or in lowercase. Requests make directories of their own in between. None of them
makes the spelling that is not in use, so that the choice stays what it was at the start.
-/

namespace AppScaffold

open Disk Volume

namespace Path.Descends

variable {root p q : Path} {above dir : String}

/-- A path into a directory of the sources. -/
theorem of_src (hdir : IsSegment dir) {rest : List String} (hrest : ".." ∉ rest) :
    Descends Path.empty "src" dir ⟨"src", dir :: rest⟩ := by
  have hup : .up ∉ Disk.steps ⟨"src", dir :: rest⟩ := by
    rw [up_mem_steps_iff]
    have hne : ".." ≠ dir := Ne.symm (isSegment_iff.mp hdir).2.2
    simp [hne, hrest]
  have hbare : bareSteps ⟨"src", dir :: rest⟩ =
      .name "src" :: .name dir :: rest.filterMap segmentStep := by
    have hsrc : segmentStep "src" = some (.name "src") := by decide
    rw [bareSteps, List.filterMap_cons_some hsrc, List.filterMap_cons_some hdir.step]
  refine ⟨by simp [isAbsolute, Path.empty], _, hbare, fun hmem => hup ?_⟩
  rw [Disk.steps, hbare]
  exact List.mem_append_left _ (List.mem_cons_of_mem _ (List.mem_cons_of_mem _ hmem))

/-- What descends from the empty path descends from every other one that it is joined to. -/
theorem root_join (h : Descends Path.empty above dir p) :
    Descends root above dir (root.join p) := by
  have hrelative : p.isAbsolute = false := h.start
  obtain ⟨below, hbare, hup⟩ := h.bare
  refine ⟨isAbsolute_join hrelative, below, ?_, hup⟩
  rw [bareSteps_join hrelative, hbare]
  rfl

/-- A descending path still descends when one follows it that does not go up. -/
theorem join (h : Descends root above dir p) (hq : q.Sinks) :
    Descends root above dir (p.join q) := by
  have hrelative := isAbsolute_of_first hq.first
  obtain ⟨below, hbare, hup⟩ := h.bare
  refine ⟨(isAbsolute_join hrelative).trans h.start, below ++ bareSteps q, ?_, fun hmem => ?_⟩
  · rw [bareSteps_join hrelative, hbare, List.append_assoc]
    rfl
  · rcases List.mem_append.mp hmem with hmem | hmem
    · exact hup hmem
    · exact hq.stays (List.mem_append_left _ hmem)

end Path.Descends

/-- The name of the directory of the state, with a capital letter or in lowercase. -/
def stateSpelling (lower : Bool) : String := if lower then "redux" else "Redux"

/-- The name of the directory of the state is a segment. -/
theorem isSegment_stateSpelling (lower : Bool) : IsSegment (stateSpelling lower) := by
  cases lower <;> rfl

namespace Volume

variable {v w : Volume} {root : Path}

/-- The directory of the state is there in lowercase, and only so. -/
def hasLowerState (v : Volume) (root : Path) : Bool :=
  !v.isDir (root.join ⟨"src", [stateSpelling false]⟩) &&
    v.isDir (root.join ⟨"src", [stateSpelling true]⟩)

/-- The place of the directory of the state in the spelling that is not in use. -/
def otherState (v : Volume) (root : Path) : Location :=
  v.place root ++ ["src", stateSpelling !v.hasLowerState root]

/-- The place of a directory of the sources. -/
theorem place_join_src (v : Volume) (root : Path) {dir : String} (hdir : IsSegment dir) :
    v.place (root.join ⟨"src", [dir]⟩) = v.place root ++ ["src", dir] := by
  have hrelative : Path.isAbsolute ⟨"src", [dir]⟩ = false := by simp [Path.isAbsolute]
  have hbare : bareSteps ⟨"src", [dir]⟩ = [.name "src", .name dir] := by
    have hsrc : segmentStep "src" = some (.name "src") := by decide
    rw [bareSteps, List.filterMap_cons_some hsrc, List.filterMap_cons_some hdir.step]
    rfl
  rw [place_eq_destination, place_eq_destination, start, start, Path.isAbsolute_join hrelative,
    Path.bareSteps_join hrelative, hbare, destination_append]
  simp [destination, Step.advance]

namespace Spares

/-- Work that spares the spelling that is not in use leaves the one in use. -/
theorem hasLowerState_eq (h : Spares v w (v.otherState root)) (hv : v.IsPlain)
    (hroot : v.Grounded root) : w.hasLowerState root = v.hasLowerState root := by
  have hgrounded : ∀ lower, v.Grounded (root.join ⟨"src", [stateSpelling lower]⟩) := fun lower =>
    hroot.descends (Path.Descends.of_src (isSegment_stateSpelling lower)
      List.not_mem_nil).root_join
  have hstays : ∀ lower, v.isDir (root.join ⟨"src", [stateSpelling lower]⟩) = true →
      w.isDir (root.join ⟨"src", [stateSpelling lower]⟩) = true := fun lower =>
    h.isDir hv (hgrounded lower)
  have hother : w.isDir (root.join ⟨"src", [stateSpelling !v.hasLowerState root]⟩) =
      v.isDir (root.join ⟨"src", [stateSpelling !v.hasLowerState root]⟩) := by
    refine isDir_eq ?_ hv (hgrounded _)
    rwa [place_join_src v root (isSegment_stateSpelling _)]
  cases hlower : v.hasLowerState root with
  | false =>
    -- the capital letter is there and stays, or neither spelling is there and lowercase is spared
    rw [hlower, Bool.not_false] at hother
    unfold hasLowerState at hlower ⊢
    rw [hother]
    cases hcapital : v.isDir (root.join ⟨"src", [stateSpelling false]⟩) with
    | true =>
      rw [hstays false hcapital]
      rfl
    | false =>
      rw [hcapital, Bool.not_false, Bool.true_and] at hlower
      rw [hlower, Bool.and_false]
  | true =>
    -- lowercase is there and stays, and the capital letter is spared
    rw [hlower, Bool.not_true] at hother
    unfold hasLowerState at hlower ⊢
    rw [Bool.and_eq_true] at hlower ⊢
    rw [hother]
    exact ⟨hlower.1, hstays true hlower.2⟩

/-- Work that spares the spelling that is not in use leaves it out of use. -/
theorem otherState_eq (h : Spares v w (v.otherState root)) (hv : v.IsPlain)
    (hroot : v.Grounded root) : w.otherState root = v.otherState root := by
  rw [otherState, otherState, h.place_eq, h.hasLowerState_eq hv hroot]

end Spares

end Volume

/-- The directory of the state that is in use has the spelling that is there. -/
theorem Layout.usedReduxDir_default (v : Volume) (root : Path) :
    Layout.usedReduxDir {} v root = ⟨"src", [stateSpelling (v.hasLowerState root)]⟩ := by
  have hsibling : Path.withFileName ⟨"src", ["Redux"]⟩ (Text.lowercase "Redux") =
      ⟨"src", ["redux"]⟩ := by
    decide +kernel
  have hname : Path.fileName ⟨"src", ["Redux"]⟩ = some "Redux" := by decide
  have halike : Path.alike ⟨"src", ["redux"]⟩ ⟨"src", ["Redux"]⟩ = false := by decide
  have hspellings : stateSpelling false = "Redux" ∧ stateSpelling true = "redux" := ⟨rfl, rfl⟩
  rw [usedReduxDir, hasLowerState, hspellings.1, hspellings.2]
  cases v.isDir (root.join ⟨"src", ["Redux"]⟩) with
  | true => rfl
  | false =>
    simp only [Bool.false_eq_true, if_false, hname, hsibling, halike, Bool.not_false, Bool.true_and]
    cases v.isDir (root.join ⟨"src", ["redux"]⟩) <;> rfl

/-- The directory of the state that is in use, when it is known which spelling is there. -/
theorem Layout.usedReduxDir_of_hasLowerState {v : Volume} {root : Path} {lower : Bool}
    (h : v.hasLowerState root = lower) :
    Layout.usedReduxDir {} v root = ⟨"src", [stateSpelling lower]⟩ := by
  rw [usedReduxDir_default, h]

namespace Settings

variable {s : Settings} {v w : Volume} {root : Path} {r : Request} {tree : FileTree}
  {entry : Option Template.RegistryEntry}

/-- Work that spares the spelling that is not in use leaves the directory of the state in use. -/
theorem usedReduxDir_of_spares (hlayout : s.layout = {}) (h : Spares v w (v.otherState root))
    (hv : v.IsPlain) (hroot : v.Grounded root) :
    s.layout.usedReduxDir w root = s.layout.usedReduxDir v root := by
  rw [hlayout, Layout.usedReduxDir_default, Layout.usedReduxDir_default, h.hasLowerState_eq hv hroot]

/-- No archetype has its files in the spelling that is not in use. -/
theorem exists_directory (hlayout : s.layout = {}) (v : Volume) (root : Path) (a : Archetype) :
    ∃ home, s.layout.directory v root a = ⟨"src", [home]⟩ ∧ IsSegment home ∧
      (stateSpelling !v.hasLowerState root) ≠ home := by
  have hspelling : ∀ lower, stateSpelling (!lower) ≠ stateSpelling lower := by decide
  have hhome : ∀ lower, ∀ home ∈ ["Screens", "components", "Api", "Navigation"],
      IsSegment home ∧ stateSpelling lower ≠ home := by decide
  rw [hlayout]
  cases a with
  | screen | loginScreen | screenApi => exact ⟨"Screens", rfl, hhome _ _ (by decide)⟩
  | component => exact ⟨"components", rfl, hhome _ _ (by decide)⟩
  | reducer | store =>
    exact ⟨_, Layout.usedReduxDir_default v root, isSegment_stateSpelling _, hspelling _⟩
  | apiConfig | apiFunction => exact ⟨"Api", rfl, hhome _ _ (by decide)⟩
  | navigation => exact ⟨"Navigation", rfl, hhome _ _ (by decide)⟩

/-- No registry is in the spelling that is not in use. -/
theorem exists_descends_aggregatorPath (hlayout : s.layout = {}) (he : s.extensions.StayBelow)
    (v : Volume) (root : Path) {a : Aggregator} (ha : a.IsNamed) :
    ∃ home, (stateSpelling !v.hasLowerState root) ≠ home ∧
      Path.Descends root "src" home (root.join (s.aggregatorPath a v root)) := by
  have hspelling : ∀ lower, stateSpelling (!lower) ≠ stateSpelling lower := by decide
  have hhome : ∀ lower, ∀ home ∈ ["Screens", "Api", "Navigation"],
      IsSegment home ∧ stateSpelling lower ≠ home := by decide
  have hscript : ".." ∉ (Path.ofText s.extensions.script).rest := he s.extensions.script (by simp)
  rw [aggregatorPath, Aggregator.path.eq_def, hlayout]
  cases a with
  | screenRegistry | loginRegistry =>
    obtain ⟨hsegment, hother⟩ := hhome (!v.hasLowerState root) "Navigation" (by decide)
    exact ⟨_, hother, (Path.Descends.of_src hsegment (by decide)).root_join⟩
  | reducerRegistry =>
    have hfile : (Path.ofText (s.extensions.scriptFile "root-reducer")).Sinks :=
      IsStem.sinks ⟨by decide, 'r', by decide, by decide⟩ hscript
    rw [Layout.usedReduxDir_default]
    exact ⟨_, hspelling _, ((Path.Descends.of_src (isSegment_stateSpelling _)
      List.not_mem_nil).join hfile).root_join⟩
  | apiFunctions =>
    have hfile : (Path.ofText (s.extensions.scriptFile "api.functions")).Sinks :=
      IsStem.sinks ⟨by decide, 'a', by decide, by decide⟩ hscript
    obtain ⟨hsegment, hother⟩ := hhome (!v.hasLowerState root) "Api" (by decide)
    exact ⟨_, hother, ((Path.Descends.of_src hsegment List.not_mem_nil).join hfile).root_join⟩
  | screenApi screen =>
    have hfile : (Path.ofText (s.extensions.scriptFile "api")).Sinks :=
      IsStem.sinks ⟨by decide, 'a', by decide, by decide⟩ hscript
    have hscreen := (Template.sinks_of_isIdentifier (ha screen rfl)).1
    obtain ⟨hsegment, hother⟩ := hhome (!v.hasLowerState root) "Screens" (by decide)
    exact ⟨_, hother,
      (((Path.Descends.of_src hsegment List.not_mem_nil).join hscreen).join hfile).root_join⟩

/-- The registry of a request that has been prepared is named after an identifier, if after anything. -/
theorem isNamed_of_prepare {e : Template.RegistryEntry}
    (h : s.prepare v root r = .ok (tree, some e)) : e.aggregator.IsNamed := fun screen hscreen =>
  ((Template.takes_of_registryEntry (registryEntry_of_prepare h)).2 screen hscreen).2

/-- A request that has been prepared comes to an outcome. The report is that on its files, and a
registry gets its entry, or does not get it, on the disk with the files. -/
theorem exists_generate_eq (h : s.prepare v root r = .ok (tree, entry)) :
    ∃ o, (s.generate v root r).1 = .ok o ∧
      o.report = (v.materialize (root.join (s.layout.directory v root r.archetype)) tree).1.1 ∧
      (o.patch = none ∧ (s.generate v root r).2 = s.filed v root r tree ∨
        ∃ e patch, entry = some e ∧ o.patch = some patch ∧
          s.register e.aggregator (s.filed v root r tree) root
            (e.entry.rootedAt (s.layout.directory v root r.archetype)) =
              (patch, (s.generate v root r).2)) := by
  have hresult := s.generate_outcomeOf v root r
  generalize s.generate v root r = result at hresult ⊢
  rw [filed]
  cases hresult with
  | refused hprepare => cases h.symm.trans hprepare
  | stopped hprepare hfiles =>
    cases h.symm.trans hprepare
    rw [hfiles]
    exact ⟨_, rfl, rfl, .inl ⟨rfl, rfl⟩⟩
  | filed hprepare hfiles =>
    cases h.symm.trans hprepare
    rw [hfiles]
    exact ⟨_, rfl, rfl, .inl ⟨rfl, rfl⟩⟩
  | registered hprepare hfiles hregister =>
    cases h.symm.trans hprepare
    rw [hfiles]
    exact ⟨_, rfl, rfl, .inr ⟨_, _, rfl, rfl, hregister⟩⟩

/-- The adding of an entry spares the directories beside that in which the registry is. -/
theorem register_spares (hv : v.IsPlain) (hroot : v.Grounded root) {a : Aggregator}
    {added : Script.Entry} {above dir other : String}
    (hp : Path.Descends root above dir (root.join (s.aggregatorPath a v root)))
    (hother : other ≠ dir) :
    Spares v (s.register a v root added).2 (v.place root ++ [above, other]) := by
  have hmade := mkdirParent_spares hv hroot hp hother
  obtain hsame | hdirs | ⟨t, hwritten⟩ := register_cases s a v root added
  · rw [hsame]
    exact .refl hv _
  · rwa [hdirs]
  · rw [hwritten]
    exact hmade.trans (writeFile_spares hmade.plain _ t _)

section Run

variable (hlayout : s.layout = {}) (he : s.extensions.StayBelow) (hv : v.IsPlain)
  (hroot : v.Grounded root)

include hlayout he hv hroot

/-- The files of a request spare the spelling that is not in use. -/
theorem filed_spares (h : s.prepare v root r = .ok (tree, entry)) :
    Spares v (s.filed v root r tree) (v.otherState root) := by
  obtain ⟨home, hdirectory, hhome, hother⟩ := exists_directory hlayout v root r.archetype
  have hputs := Template.putsAt_of_instantiate (instantiate_of_prepare h)
  refine placeFiles_spares hv hroot (fun f hf => ?_) hother
  rw [hdirectory]
  exact (Path.Descends.of_src hhome List.not_mem_nil).root_join.join ((hputs f hf).sinks he)

/-- A request spares the spelling that is not in use. -/
theorem generate_spares (r : Request) :
    Spares v (s.generate v root r).2 (v.otherState root) := by
  cases hprepare : s.prepare v root r with
  | error e =>
    rw [generate_of_prepare hprepare]
    exact .refl hv _
  | ok prepared =>
    obtain ⟨tree, entry⟩ := prepared
    have hfiled := filed_spares hlayout he hv hroot hprepare
    obtain ⟨o, -, -, ⟨-, hsame⟩ | ⟨e, patch, rfl, -, hregister⟩⟩ := exists_generate_eq hprepare
    · rwa [hsame]
    · obtain ⟨home, hother, hdescends⟩ :=
        exists_descends_aggregatorPath hlayout he (s.filed v root r tree) root
          (isNamed_of_prepare hprepare)
      have hadded : Spares (s.filed v root r tree) (s.register e.aggregator (s.filed v root r tree)
          root (e.entry.rootedAt (s.layout.directory v root r.archetype))).2
            ((s.filed v root r tree).otherState root) :=
        register_spares hfiled.plain (hfiled.grounded hroot) hdescends hother
      rw [hregister] at hadded
      refine hfiled.trans ?_
      rwa [← hfiled.otherState_eq hv hroot]

/-- Requests spare the spelling that is not in use, one after the other. -/
theorem volumeAfter_spares (rs : List Request) :
    Spares v (s.volumeAfter v root rs) (v.otherState root) := by
  induction rs generalizing v with
  | nil => exact .refl hv _
  | cons r rs ih =>
    have hfirst := generate_spares hlayout he hv hroot r
    have hrest := ih hfirst.plain (hfirst.grounded hroot)
    rw [hfirst.otherState_eq hv hroot] at hrest
    exact hfirst.trans hrest

end Run

end Settings

end AppScaffold
