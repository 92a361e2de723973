import AppScaffold.Proofs.Project.Keeping
import AppScaffold.Proofs.Project.Sources
import Mathlib.Data.List.Basic
import Mathlib.Logic.Function.Basic
import Mathlib.Tactic.Common

/-!
# How a new project grows

What is below the directory of the sources of a new project is told by the requests so far. A request
that is accepted makes the files that are missing and adds its entry to its registry; nothing else
changes.
-/

namespace AppScaffold

open Disk Volume

section Layout

variable {v : Volume} {root : Path}

/-- A directory of the state in lowercase is not taken, if there is none. -/
theorem usedReduxDir_eq (h : v.find? ((sources root).extend ["redux"]) = .error .notFound) :
    Layout.usedReduxDir {} v root = ⟨"src", ["Redux"]⟩ := by
  have hsibling : Path.withFileName ⟨"src", ["Redux"]⟩ (Text.lowercase "Redux") =
      ⟨"src", ["redux"]⟩ := by
    decide +kernel
  have hname : Path.fileName ⟨"src", ["Redux"]⟩ = some "Redux" := by decide
  rw [Layout.usedReduxDir]
  split_ifs
  · rfl
  · simp only [hname, hsibling, Path.join_src, isDir, h, Bool.and_false, Bool.false_eq_true, if_false]

/-- The directories of the archetypes. -/
theorem directory_eq (h : v.find? ((sources root).extend ["redux"]) = .error .notFound)
    (a : Archetype) : Layout.directory {} v root a = ⟨"src", [a.home]⟩ := by
  cases a with
  | reducer | store => exact usedReduxDir_eq h
  | _ => rfl

/-- The places of the registries. -/
theorem aggregatorPath_eq (h : v.find? ((sources root).extend ["redux"]) = .error .notFound)
    {a : Aggregator} (ha : a.IsNamed) (hreach : Follows (sources root) a.location) :
    Settings.aggregatorPath {} a v root = ⟨"src", a.location⟩ := by
  have hfile : ∀ file ∈ ["root-reducer.js", "api.functions.js", "api.js"],
      Path.ofText file = ⟨file, []⟩ := by
    intro file hfile
    refine Path.ofText_of_notMem ?_
    simp only [List.mem_cons, List.not_mem_nil, or_false] at hfile
    rcases hfile with rfl | rfl | rfl <;> decide
  rw [Settings.aggregatorPath]
  cases a with
  | screenRegistry | loginRegistry => rfl
  | reducerRegistry =>
    rw [Aggregator.path, usedReduxDir_eq h]
    exact congrArg (Path.join _) (hfile "root-reducer.js" (by decide))
  | apiFunctions => exact congrArg (Path.join _) (hfile "api.functions.js" (by decide))
  | screenApi screen =>
    obtain ⟨hslash, hne⟩ := Template.notMem_of_isIdentifier (ha screen rfl)
    have hhome : Path.IsTrimmed ⟨"src", ["Screens"]⟩ := Path.isTrimmed_home .screen
    have hscreen : (Path.extend ⟨"src", ["Screens"]⟩ [screen]).IsTrimmed := hhome.extend fun s hs => by
      rw [List.mem_singleton.mp hs]
      exact hreach.proper screen (List.mem_cons_of_mem _ List.mem_cons_self)
    have hdir : (⟨"src", ["Screens"]⟩ : Path).join (.ofText screen) =
        Path.extend ⟨"src", ["Screens"]⟩ [screen] := by
      rw [Path.ofText_of_notMem hslash]
      exact hhome.join_eq hne
    change Path.join (Path.join ⟨"src", ["Screens"]⟩ (.ofText screen)) (.ofText "api.js") = _
    rw [hdir, hfile "api.js" (by decide)]
    exact hscreen.join_eq (by decide)

end Layout

namespace Begun

variable {v w x : Volume} {root : Path} {src : Location} {files : Location → Option String}

/-- The directory of the state in lowercase is never there. -/
theorem find?_redux (hf : Begun v root w src) (h : Shows w src files x)
    (hplaces : ∀ loc, files loc ≠ none → IsSite loc) :
    x.find? ((sources root).extend ["redux"]) = .error .notFound := by
  have hnone : ∀ names, files ("redux" :: names) = none := fun names => by
    by_contra hsome
    exact (hplaces _ hsome).state rfl
  have hadmits : Admits files ([] ++ ["redux"]) := by
    refine ⟨fun q hq hne => ?_, fun names _ => hnone names⟩
    rcases List.prefix_concat_iff.mp hq with rfl | hq
    · exact absurd rfl hne
    · rw [List.prefix_nil.mp hq]
      by_contra hsome
      obtain ⟨dirs, file, heq, -⟩ := (hplaces _ hsome).split
      simp at heq
  have hfind := h.find?_eq hf.toVacant hf.room hadmits
  rwa [List.nil_append, hnone] at hfind

/-- A path to a file of an artifact goes through the directory of the archetype. -/
theorem join_path (root : Path) {f : GeneratedFile} {a : Archetype}
    (hf : Follows (sources root) (f.location a)) :
    (root.join ⟨"src", [a.home]⟩).join f.path = root.join ⟨"src", f.location a⟩ := by
  have hfirst : f.path.first ≠ "" := by
    intro hempty
    have hidle := Path.idle_of_isName (hf.proper _ (List.mem_cons_of_mem _ List.mem_cons_self))
    rw [hempty] at hidle
    exact absurd hidle (by decide)
  exact Path.join_join_src root (hf.proper _ List.mem_cons_self) hfirst

/-- The files of an artifact are made where none are; those that are there are skipped. -/
theorem placeFiles_eq (hf : Begun v root w src) (h : Shows w src files x)
    (hplaces : ∀ loc, files loc ≠ none → IsSite loc) (a : Archetype) {fs : List GeneratedFile}
    (hfs : ∀ f ∈ fs, IsSite (f.location a) ∧ Follows (sources root) (f.location a))
    (hnodup : (fs.map (·.location a)).Nodup) :
    ∃ y, x.placeFiles (root.join ⟨"src", [a.home]⟩) fs =
        (({ created := ((fs.map (·.location a)).filter fun loc => (files loc).isNone).map
              (root.join ⟨"src", ·⟩)
            skipped := ((fs.map (·.location a)).filter fun loc => (files loc).isSome).map
              (root.join ⟨"src", ·⟩) }, none), y) ∧
      Shows w src
        (fun loc => (files loc).or ((fs.map fun f => (f.location a, f.content)).lookup loc)) y := by
  induction fs generalizing x files with
  | nil =>
    refine ⟨x, rfl, ?_⟩
    simpa using h
  | cons f fs ih =>
    obtain ⟨hplace, hfollows⟩ := hfs f List.mem_cons_self
    have hjoin := join_path root hfollows
    obtain ⟨hnew, hrest⟩ := List.nodup_cons.mp hnodup
    obtain ⟨dirs, file, hsplit, hdirs, -⟩ := hplace.split
    have hadmits := IsSite.admits hplaces hplace
    rw [hsplit] at hfollows hadmits
    obtain ⟨y, hplaced, hy⟩ :=
      h.placeFile_eq hf.toVacant hfollows hdirs hadmits f.content
    rw [← hsplit, ← Path.join_src] at hplaced
    rw [← hsplit] at hy
    have hplaces' : ∀ loc, Function.update files (f.location a)
        (some ((files (f.location a)).getD f.content)) loc ≠ none → IsSite loc := by
      intro loc hloc
      by_cases heq : loc = f.location a
      · rw [heq]
        exact hplace
      · rw [Function.update_of_ne heq] at hloc
        exact hplaces loc hloc
    obtain ⟨z, hmore, hz⟩ := ih hy hplaces' (fun g hg => hfs g (List.mem_cons_of_mem _ hg)) hrest
    -- the other files of the artifact are where they were
    have hsame : ∀ loc ∈ fs.map (·.location a), Function.update files (f.location a)
        (some ((files (f.location a)).getD f.content)) loc = files loc := by
      intro loc hloc
      refine Function.update_of_ne ?_ _ _
      rintro rfl
      exact hnew hloc
    have hnone := List.filter_congr fun loc hloc => congrArg Option.isNone (hsame loc hloc)
    have hsome := List.filter_congr fun loc hloc => congrArg Option.isSome (hsame loc hloc)
    refine ⟨z, ?_, ?_⟩
    · rw [placeFiles, hjoin, hplaced]
      simp only [hmore, hnone, hsome, List.map_cons, List.filter_cons]
      cases files (f.location a) <;> rfl
    · convert hz using 1
      funext loc
      rw [List.map_cons, List.lookup_cons]
      by_cases heq : loc = f.location a
      · subst heq
        rw [Function.update_self, beq_self_eq_true]
        cases files (f.location a) <;> rfl
      · have hne : (loc == f.location a) = false := beq_false_of_ne heq
        rw [Function.update_of_ne heq, hne]

/-- An entry is added to its registry, which is made from its seed if it has no entries yet. -/
theorem register_eq (hf : Begun v root w src) (h : Shows w src files x)
    (hplaces : ∀ loc, files loc ≠ none → IsSite loc) {a : Aggregator} (ha : a.IsNamed)
    (hreach : Follows (sources root) a.location) {entries : List Script.Entry}
    (hentries : ∀ e ∈ entries, a.Takes e)
    (hfile : files a.location = if entries = [] then none else some (a.content entries))
    {e : Script.Entry} (he : a.Takes e) :
    ∃ y, Settings.register {} a x root e =
        (.patched a (root.join ⟨"src", a.location⟩) entries.isEmpty, y) ∧
      Shows w src (Function.update files a.location (some (a.content (entries ++ [e])))) y := by
  have hplace := Aggregator.isSite ha
  obtain ⟨dirs, file, hsplit, hdirs, -⟩ := hplace.split
  have hadmits := IsSite.admits hplaces hplace
  have hpath := aggregatorPath_eq (hf.find?_redux h hplaces) ha hreach
  rw [hsplit] at hreach hadmits
  obtain ⟨hexists, hread⟩ := h.readText_eq hf.toVacant hreach hadmits
  obtain ⟨y, z, hmade, hwritten, hz⟩ := h.writeFile_eq hf.toVacant hreach hdirs hadmits
    (a.content (entries ++ [e]))
  rw [← hsplit, ← Path.join_src] at hexists hread hmade hwritten
  rw [← hsplit] at hz
  have htext : Settings.aggregatorText {} a x root = .ok (a.current entries, entries.isEmpty) := by
    simp only [Settings.aggregatorText, hpath, hexists]
    rw [Aggregator.current]
    by_cases hnil : entries = []
    · rw [if_pos hnil] at hfile
      simp [hfile, hnil]
    · rw [if_neg hnil] at hfile
      simp [hfile, hnil, hread _ hfile]
  have hpatched : Settings.patchAggregator {} a x root e =
      .ok ⟨root.join ⟨"src", a.location⟩, a.content (entries ++ [e]), entries.isEmpty⟩ := by
    rw [Settings.patchAggregator, htext]
    simp only [bind, Except.bind, hpath, Aggregator.applyPatch_eq hentries he, String.ofList_toList]
  refine ⟨z, ?_, hz⟩
  rw [Settings.register_eq {} hpatched, PatchedFile.write_eq_iff.mpr (.written hmade hwritten)]

end Begun

namespace Settings

variable {v : Volume} {root : Path} {r : Request} {tree : FileTree}
  {entry : Option Template.RegistryEntry}

/-- What is prepared for a request is its files and what it adds to a registry. -/
theorem of_prepare (h : prepare {} v root r = .ok (tree, entry)) :
    Template.instantiate {} r.archetype r.params = .ok tree ∧
      r.registration = entry.map (fun e =>
        { e with entry := e.entry.rootedAt ⟨"src", [r.archetype.home]⟩ }) ∧
      (tree.files = [] → entry ≠ none) ∧
      Template.registryEntry r.archetype r.params = .ok entry ∧ checkScreen {} v root r = .ok () := by
  obtain ⟨htree, hentry, hscreen⟩ := prepare_eq_ok_iff.mp h
  refine ⟨htree, by rw [Request.registration, hentry], ?_, hentry, hscreen⟩
  rintro hnil rfl
  obtain ⟨files, rfl, hmakes⟩ := Template.exists_makes htree
  refine Template.registryEntry_ne_none (hmakes.none ?_) hentry
  by_contra hne
  exact FileTree.ofList_ne_nil hne hnil

end Settings

namespace Begun

variable {v w x : Volume} {root : Path} {src : Location} {qs : List Request} {r : Request}

/-- A request that is accepted makes the files that are missing and adds its entry. -/
theorem generate_eq (hf : Begun v root w src) (hr : r.Reaches root)
    (h : Shows w src (contents qs) x) (hok : ∃ o, (Settings.generate {} x root r).1 = .ok o) :
    ∃ y, Settings.generate {} x root r = (.ok (outcomeAfter root qs r), y) ∧
      Shows w src (contents (qs ++ [r])) y := by
  obtain ⟨tree, entry, hprepare⟩ := (Settings.exists_outcome_iff {} x root r).mp hok
  obtain ⟨htree, hregistration, -⟩ := Settings.of_prepare hprepare
  have hfiles := Request.files_eq htree
  have hplaces : ∀ loc, contents qs loc ≠ none → IsSite loc := fun _ => isSite_of_contents_ne_none
  have hdir := directory_eq (hf.find?_redux h hplaces) r.archetype
  have hmem : ∀ f ∈ tree.files, (f.location r.archetype, f.content) ∈ r.files := fun f hmem => by
    rw [hfiles]
    exact List.mem_map_of_mem hmem
  have hlocations : r.files.map Prod.fst = tree.files.map (·.location r.archetype) := by
    rw [hfiles, List.map_map]
    rfl
  obtain ⟨y, hplaced, hy⟩ := hf.placeFiles_eq h hplaces r.archetype
    (fun f hmem' => ⟨Request.isSite_of_mem_files (hmem f hmem'),
      hr.files _ (List.mem_map_of_mem (hmem f hmem'))⟩) (hlocations ▸ r.nodup_files)
  rw [← hfiles] at hy
  -- the files of a request are never registries
  have hfirst : ∀ loc ∈ r.files.map Prod.fst, contents qs loc = firstFile qs loc := by
    intro loc hloc
    obtain ⟨f, hf', rfl⟩ := List.mem_map.mp hloc
    exact contents_of_mem_files qs hf'
  have hnone := List.filter_congr fun loc hloc => congrArg Option.isNone (hfirst loc hloc)
  have hsome := List.filter_congr fun loc hloc => congrArg Option.isSome (hfirst loc hloc)
  rw [← hlocations, hnone, hsome, ← Volume.materialize] at hplaced
  rw [contents_concat, outcomeAfter, hregistration]
  have hmade : x.materialize (root.join (Layout.directory {} x root r.archetype)) tree = _ :=
    hdir ▸ hplaced
  cases entry with
  | none => exact ⟨y, Settings.generate_eq_iff.mpr (.filed hprepare hmade), hy⟩
  | some e =>
    have hfile : (contents qs e.aggregator.location).or (r.files.lookup e.aggregator.location) =
        if e.aggregator.entriesIn qs = [] then none
        else some (e.aggregator.content (e.aggregator.entriesIn qs)) := by
      rw [lookup_location, Option.or_none, contents_location]
    obtain ⟨z, hregister, hz⟩ := hf.register_eq hy (fun _ => isSite_of_or_ne_none)
      (Request.isNamed_aggregator hregistration) (hr.registry _ hregistration)
      (fun _ => Aggregator.takes_of_mem_entriesIn)
      hfile (Request.takes hregistration)
    rw [← hdir] at hregister
    exact ⟨z, Settings.generate_eq_iff.mpr (.registered hprepare hmade hregister), hz⟩

end Begun

end AppScaffold
