import AppScaffold.Proofs.Disk.Listing
import AppScaffold.Proofs.Project.StateDirectory

/-!
# The files of the state are in one directory

All requests of a run find the same directory of the state, also between the making of their files
and the adding of an entry. The slices, the store and the root reducer are therefore in one
directory, and the root reducer imports each slice from the directory next to it.

There are two ways for a run to change the directory after all. A root may go up from a directory
that is missing, so that nothing is found at first; a request makes the directory, and then the state
in lowercase is found. And an extension with slashes may lead a file up again and into the other
spelling.
-/

namespace AppScaffold

open Disk Volume

namespace Path

/-- A list has all its components in common with what begins with it. -/
theorem commonLength_append (dir target : List Component) :
    commonLength dir (dir ++ target) = dir.length := by
  induction dir with
  | nil => rw [commonLength.eq_2 _ _ (by simp), List.length_nil]
  | cons c dir ih => rw [List.cons_append, commonLength, if_pos rfl, ih, List.length_cons]

/-- The way to what is below a directory goes down from it. -/
theorem wayBetween_append (dir target : List Component) :
    wayBetween dir (dir ++ target) = "." :: target.map Component.text := by
  rw [wayBetween, commonLength_append, if_pos rfl, List.drop_left]
  rfl

/-- A file in a directory names what is below the directory by the way down from there. -/
theorem IsDownward.moduleSpecifier_join {dir : Path} (h : dir.IsDownward) {file first : String}
    (hfile : IsSegment file) {rest : List String}
    (hsegments : ∀ segment ∈ first :: rest, IsSegment segment)
    (hslash : ∀ segment ∈ first :: rest, '/' ∉ segment.toList) :
    moduleSpecifier (dir.join ⟨file, []⟩) (dir.join ⟨first, rest⟩) =
      Text.join "/" ("." :: first :: rest) := by
  obtain ⟨hfirst, hrest⟩ := List.forall_mem_cons.mp hsegments
  have hcomponents := h.components_join hfirst (filterMap_of_isSegment hrest)
  have htarget := (IsDownward.of_names hcomponents fun t ht =>
    (List.mem_append.mp ht).elim (h.slash t) (hslash t)).1
  rw [moduleSpecifier, (h.isPlaced_join hfile).parent, names_join_file dir hfile,
    List.dropLast_concat, htarget.steps_eq, hcomponents, List.map_append, wayBetween_append]
  simp [Function.comp_def, Component.text]

end Path

namespace Volume

variable {p dir q : Path}

/-- What follows a path without going up leads below it. -/
theorem place_prefix_join (v : Volume) (p : Path) (hq : q.Sinks) :
    v.place p <+: v.place (p.join q) := by
  have hrelative := Path.isAbsolute_of_first hq.first
  rw [place_eq_destination, place_eq_destination, start, start, Path.isAbsolute_join hrelative,
    Path.bareSteps_join hrelative, destination_append]
  exact prefix_destination fun hmem => hq.stays (List.mem_append_left _ hmem)

/-- It makes no difference in which order paths are joined. -/
theorem place_join_join (v : Volume) (p : Path) (hdir : dir.isAbsolute = false)
    (hq : q.isAbsolute = false) :
    v.place (p.join (dir.join q)) = v.place ((p.join dir).join q) := by
  have hjoin : (dir.join q).isAbsolute = false := (Path.isAbsolute_join hq).trans hdir
  rw [place_eq_destination, place_eq_destination, start, start, Path.isAbsolute_join hjoin,
    Path.isAbsolute_join hq, Path.isAbsolute_join hdir, Path.bareSteps_join hjoin,
    Path.bareSteps_join hq, Path.bareSteps_join hq, Path.bareSteps_join hdir, List.append_assoc]

end Volume

namespace Settings

/-- The path of the file of a slice, the directory of the state being `dir`. -/
def slicePath (s : Settings) (dir root : Path) (name : String) : Path :=
  (root.join dir).join (Template.within name (s.extensions.scriptFile (name ++ "-reducer")))

/-- The path of the store. -/
def storePath (s : Settings) (dir root : Path) : Path :=
  (root.join dir).join (.ofText (s.extensions.scriptFile "store"))

/-- The path of the root reducer. -/
def rootReducerPath (s : Settings) (dir root : Path) : Path :=
  root.join (dir.join (.ofText (s.extensions.scriptFile "root-reducer")))

/-- What a request for a slice has done, the directory of the state being `dir`. -/
structure MakesSlice (s : Settings) (dir root : Path) (v : Volume) (r : Request) (tree : FileTree)
    (name : String) (o : Outcome) (w : Volume) : Prop where
  /-- The slice has the name that is given. -/
  given : r.params.text "name" = some name
  /-- The name is an identifier. -/
  identifier : Name.isIdentifier name = true
  /-- The file of the slice is in the directory. -/
  report : ∀ p ∈ o.report.created ++ o.report.skipped, p = s.slicePath dir root name
  /-- Nothing is written elsewhere but the root reducer in the directory. -/
  rest : ∀ loc, v.place (s.slicePath dir root name) ≠ loc →
    v.place (s.rootReducerPath dir root) ≠ loc → Unaltered v w loc
  /-- The root reducer in the directory gets the import of the slice, which is next to it. -/
  entered : ∀ a p seeded, o.patch = some (.patched a p seeded) →
    a = .reducerRegistry ∧ p = s.rootReducerPath dir root ∧
      ∃ text text' line, s.Reads a (s.filed v root r tree) root text seeded ∧
        Script.applyPatch text.toList a.anchor (Skeleton.reducerEntry (Name.camel name)).toList
          (some line.toList) = some text'.toList ∧
        w.disk.get? (v.place p) = some (.file (.text text')) ∧
        ('/' ∉ s.extensions.script.toList →
          line = Skeleton.importNamed (Name.camel name ++ "Reducer")
            ("./" ++ name ++ "/" ++ name ++ "-reducer"))

/-- A request all of whose steps find the directory of the state at `dir`. -/
structure StaysIn (s : Settings) (dir root : Path) (v : Volume) (r : Request) : Prop where
  /-- The directory is in use before the request. -/
  before : s.layout.usedReduxDir v root = dir
  /-- It is in use when the files of the request have been made. -/
  between : ∀ tree entry, s.prepare v root r = .ok (tree, entry) →
    s.layout.usedReduxDir (s.filed v root r tree) root = dir
  /-- It is in use after the request. -/
  after : s.layout.usedReduxDir (s.generate v root r).2 root = dir
  /-- A slice and its entry are in the directory. -/
  slice : r.archetype = .reducer → ∀ o, (s.generate v root r).1 = .ok o →
    ∃ tree entry name, s.prepare v root r = .ok (tree, entry) ∧
      s.MakesSlice dir root v r tree name o (s.generate v root r).2
  /-- The store is in the directory, and nothing is written elsewhere. -/
  store : r.archetype = .store → ∀ o, (s.generate v root r).1 = .ok o →
    (∀ p ∈ o.report.created ++ o.report.skipped, p = s.storePath dir root) ∧
      ∀ loc, v.place (s.storePath dir root) ≠ loc → Unaltered v (s.generate v root r).2 loc
  /-- Whatever a request for a slice or the store writes is inside the directory. -/
  inside : r.archetype = .reducer ∨ r.archetype = .store → ∀ loc,
    ¬v.place (root.join dir) <+: loc → Unaltered v (s.generate v root r).2 loc

variable {s : Settings} {v : Volume} {root dir : Path} {r : Request} {tree : FileTree}
  {entry : Option Template.RegistryEntry}

/-- A root reducer whose extension has no slashes imports a slice from the directory next to it. -/
theorem render_slice (hdir : dir.IsDownward) (hscript : '/' ∉ s.extensions.script.toList)
    {name : String} (hname : Name.isIdentifier name = true) :
    Script.ImportLine.render
        ⟨.named (Name.camel name ++ "Reducer"),
          dir.join (Template.within name (name ++ "-reducer"))⟩
        (dir.join (.ofText (s.extensions.scriptFile "root-reducer"))) =
      Skeleton.importNamed (Name.camel name ++ "Reducer")
        ("./" ++ name ++ "/" ++ name ++ "-reducer") := by
  have hsegment := (isSegment_of_isIdentifier hname).1
  have hnameslash := (Template.notMem_of_isIdentifier hname).1
  have hslash : '/' ∉ (s.extensions.scriptFile "root-reducer").toList := by
    simp [Extensions.scriptFile, hscript]
  have hfile : IsSegment (s.extensions.scriptFile "root-reducer") :=
    isSegment_of_mem (c := 'r') (by simp [Extensions.scriptFile]) (by decide)
  have hlast : IsSegment (name ++ "-reducer") := isSegment_of_mem (c := 'r') (by simp) (by decide)
  have hsuffix : '/' ∉ (name ++ "-reducer").toList := by simp [hnameslash]
  have hspecifier : Path.moduleSpecifier (dir.join ⟨s.extensions.scriptFile "root-reducer", []⟩)
      (dir.join ⟨name, [name ++ "-reducer"]⟩) = Text.join "/" [".", name, name ++ "-reducer"] :=
    hdir.moduleSpecifier_join hfile (by simpa using ⟨hsegment, hlast⟩)
      (List.forall_mem_cons.mpr ⟨hnameslash, List.forall_mem_singleton.mpr hsuffix⟩)
  rw [Script.ImportLine.render, Path.ofText_of_notMem hslash,
    Template.within_identifier hname hsuffix]
  dsimp only
  rw [hspecifier]
  simp [Text.join, String.append_assoc]

/-- The only file of a request is at its path, and nothing is written elsewhere. -/
theorem filed_single (s : Settings) (root : Path) (r : Request) (hv : v.IsPlain) {f : GeneratedFile}
    (hfiles : tree.files = [f]) :
    let report := (v.materialize (root.join (s.layout.directory v root r.archetype)) tree).1.1
    (∀ p ∈ report.created ++ report.skipped, p = s.target v root r f) ∧
      ∀ loc, v.place (s.target v root r f) ≠ loc → Unaltered v (s.filed v root r tree) loc := by
  have hfiled := placeFiles_filed hv (root.join (s.layout.directory v root r.archetype)) tree.files
  rw [← materialize] at hfiled
  have hcreated : ∀ p ∈ (v.materialize (root.join (s.layout.directory v root r.archetype))
      tree).1.1.created, p = s.target v root r f := by
    intro p hp
    obtain ⟨g, hg, hpath, -⟩ := hfiled.created p hp
    rw [hfiles, List.mem_singleton] at hg
    rw [hpath, hg, target]
  refine ⟨fun p hp => ?_, fun loc hloc => hfiled.unaltered fun p hp => ?_⟩
  · rcases List.mem_append.mp hp with hp | hp
    · exact hcreated p hp
    · obtain ⟨g, hg, hpath, -⟩ := hfiled.skipped p hp
      rw [hfiles, List.mem_singleton] at hg
      rw [hpath, hg, target]
  · rw [hcreated p hp]
    exact hloc

/-- A request for a slice makes it, and enters it, in the directory of the state. -/
theorem exists_makesSlice (hv : v.IsPlain) (hordinary : dir.IsOrdinary)
    (hr : r.archetype = .reducer) (hbefore : s.layout.usedReduxDir v root = dir)
    (hbetween : ∀ tree entry, s.prepare v root r = .ok (tree, entry) →
      s.layout.usedReduxDir (s.filed v root r tree) root = dir)
    {o : Outcome} (ho : (s.generate v root r).1 = .ok o) :
    ∃ tree entry name, s.prepare v root r = .ok (tree, entry) ∧
      s.MakesSlice dir root v r tree name o (s.generate v root r).2 := by
  obtain ⟨tree, entry, hprepare⟩ := (s.exists_outcome_iff v root r).mp ⟨o, ho⟩
  have hused := hbetween tree entry hprepare
  have htree := instantiate_of_prepare hprepare
  have hentry := registryEntry_of_prepare hprepare
  have hdirectory : s.layout.directory v root r.archetype = dir := by
    rw [hr]
    exact hbefore
  rw [hr] at htree hentry
  obtain ⟨name, f, hgiven, hname, hfiles, hpath⟩ := Template.exists_of_instantiate_reducer htree
  rw [Template.registryEntry_reducer hgiven hname] at hentry
  obtain rfl := Except.ok.inj hentry
  have htarget : s.target v root r f = s.slicePath dir root name := by
    rw [target, hdirectory, hpath, slicePath]
  obtain ⟨hreport, hrest⟩ := s.filed_single root r hv hfiles
  have hadded := (placeFiles_filed hv (root.join (s.layout.directory v root r.archetype))
    tree.files).added
  rw [← materialize, ← filed] at hadded
  rw [htarget] at hreport hrest
  obtain ⟨o', ho', hsame, hpatch⟩ := exists_generate_eq hprepare
  obtain rfl : o = o' := Except.ok.inj (ho.symm.trans ho')
  rw [← hsame] at hreport
  refine ⟨tree, _, name, hprepare, ?_⟩
  rcases hpatch with ⟨hnone, hdone⟩ | ⟨e, patch, he, hpatch, hregister⟩
  · rw [hdone]
    refine ⟨hgiven, hname, hreport, fun loc hloc _ => hrest loc hloc, ?_⟩
    simp [hnone]
  · obtain rfl := Option.some.inj he
    have henters := register_enters hadded.plain s .reducerRegistry root
      ((Template.reducerEntry name).entry.rootedAt (s.layout.directory v root r.archetype))
    have hregistry : s.aggregatorPath .reducerRegistry (s.filed v root r tree) root =
        dir.join (.ofText (s.extensions.scriptFile "root-reducer")) := by
      rw [aggregatorPath, hused]
      rfl
    rw [hdirectory] at henters hregister
    change s.register .reducerRegistry _ _ _ = _ at hregister
    rw [hregister] at henters
    generalize (s.generate v root r).2 = w at henters ⊢
    cases henters with
    | failed problem same hkept =>
      refine ⟨hgiven, hname, hreport, fun loc hloc _ => (hrest loc hloc).trans (hkept loc), ?_⟩
      simp [hpatch]
    | patched text text' seeded hreads hentered hwritten hkept =>
      rw [hregistry, hadded.place_eq] at hwritten hkept
      refine ⟨hgiven, hname, hreport,
        fun loc hloc hother => (hrest loc hloc).trans (hkept loc hother), ?_⟩
      rw [hpatch, hregistry]
      rintro _ _ _ ⟨⟩
      obtain ⟨cs, hcs, rfl⟩ := Option.map_eq_some_iff.mp hentered
      rw [hregistry] at hcs
      refine ⟨rfl, rfl, text, _, _, hreads, ?_, hwritten, fun hscript =>
        render_slice hordinary.isDownward hscript hname⟩
      rw [String.toList_ofList]
      exact hcs

/-- A request for the store makes it in the directory of the state, and does nothing else. -/
theorem generate_store (hv : v.IsPlain) (hr : r.archetype = .store)
    (hbefore : s.layout.usedReduxDir v root = dir) {o : Outcome}
    (ho : (s.generate v root r).1 = .ok o) :
    (∀ p ∈ o.report.created ++ o.report.skipped, p = s.storePath dir root) ∧
      ∀ loc, v.place (s.storePath dir root) ≠ loc → Unaltered v (s.generate v root r).2 loc := by
  obtain ⟨tree, entry, hprepare⟩ := (s.exists_outcome_iff v root r).mp ⟨o, ho⟩
  have htree := instantiate_of_prepare hprepare
  have hentry := registryEntry_of_prepare hprepare
  have hdirectory : s.layout.directory v root r.archetype = dir := by
    rw [hr]
    exact hbefore
  rw [hr] at htree hentry
  obtain ⟨f, hfiles, hpath⟩ := Template.exists_of_instantiate_store htree
  obtain rfl : none = entry := Except.ok.inj hentry
  have htarget : s.target v root r f = s.storePath dir root := by
    rw [target, hdirectory, hpath, storePath]
  obtain ⟨o', ho', hsame, ⟨-, hdone⟩ | ⟨e, patch, he, -⟩⟩ := exists_generate_eq hprepare
  · obtain rfl : o = o' := Except.ok.inj (ho.symm.trans ho')
    have hsingle := s.filed_single root r hv hfiles
    rw [← hsame, htarget] at hsingle
    rwa [hdone]
  · cases he

/-- The files of slices, the store and the root reducer are inside the directory of the state. -/
theorem place_prefix_state (he : s.extensions.StayBelow) (hdir : dir.isAbsolute = false)
    (v : Volume) (root : Path) :
    v.place (root.join dir) <+: v.place (s.storePath dir root) ∧
      v.place (root.join dir) <+: v.place (s.rootReducerPath dir root) ∧
      ∀ name, Name.isIdentifier name = true →
        v.place (root.join dir) <+: v.place (s.slicePath dir root name) := by
  have hscript : ".." ∉ (Path.ofText s.extensions.script).rest := he s.extensions.script (by simp)
  have hstore : (Path.ofText (s.extensions.scriptFile "store")).Sinks :=
    IsStem.sinks ⟨by decide, 's', by decide, by decide⟩ hscript
  have hrootReducer : (Path.ofText (s.extensions.scriptFile "root-reducer")).Sinks :=
    IsStem.sinks ⟨by decide, 'r', by decide, by decide⟩ hscript
  refine ⟨v.place_prefix_join _ hstore, ?_, fun name hname => ?_⟩
  · rw [rootReducerPath, v.place_join_join root hdir (Path.isAbsolute_of_first hrootReducer.first)]
    exact v.place_prefix_join _ hrootReducer
  · have hfile : (Path.ofText (s.extensions.scriptFile (name ++ "-reducer"))).Sinks :=
      (Template.isStem_append hname (by decide)).sinks hscript
    exact v.place_prefix_join _ ((Template.sinks_of_isIdentifier hname).1.join hfile)

/-- A request finds the same directory of the state at every step. -/
theorem staysIn (hlayout : s.layout = {}) (he : s.extensions.StayBelow) (hv : v.IsPlain)
    (hroot : v.Grounded root) (r : Request) :
    s.StaysIn (s.layout.usedReduxDir v root) root v r := by
  have hbetween : ∀ tree entry, s.prepare v root r = .ok (tree, entry) →
      s.layout.usedReduxDir (s.filed v root r tree) root = s.layout.usedReduxDir v root :=
    fun tree entry hprepare =>
      usedReduxDir_of_spares hlayout (filed_spares hlayout he hv hroot hprepare) hv hroot
  have hordinary : (s.layout.usedReduxDir v root).IsOrdinary := by
    refine Layout.isOrdinary_usedReduxDir ?_ v root
    rw [hlayout]
    decide
  have hrelative : (s.layout.usedReduxDir v root).isAbsolute = false := by
    rw [hlayout, Layout.usedReduxDir_default]
    rfl
  obtain ⟨hstorePath, hrootReducerPath, hslicePath⟩ := place_prefix_state he hrelative v root
  have hslice : r.archetype = .reducer → ∀ o, (s.generate v root r).1 = .ok o → _ := fun hr _ =>
    exists_makesSlice hv hordinary hr rfl hbetween
  have hstore : r.archetype = .store → ∀ o, (s.generate v root r).1 = .ok o → _ := fun hr _ =>
    generate_store hv hr rfl
  refine ⟨rfl, hbetween, ?_, hslice, hstore, fun hr loc hloc => ?_⟩
  · exact usedReduxDir_of_spares hlayout (generate_spares hlayout he hv hroot r) hv hroot
  · have hne : ∀ p, v.place (root.join (s.layout.usedReduxDir v root)) <+: v.place p →
        v.place p ≠ loc := by
      rintro p hp rfl
      exact hloc hp
    cases ho : (s.generate v root r).1 with
    | error e =>
      rw [volume_of_refused ho]
      exact .inl rfl
    | ok o =>
      rcases hr with hr | hr
      · obtain ⟨tree, entry, name, -, hmakes⟩ := hslice hr o ho
        exact hmakes.rest loc (hne _ (hslicePath name hmakes.identifier)) (hne _ hrootReducerPath)
      · exact (hstore hr o ho).2 loc (hne _ hstorePath)

/-- All requests of a run find the same directory of the state, at every step, and have the files of
the state there, if the layout is that of the library, the extensions do not go up, there are no
links, and the root goes up only from directories. -/
theorem staysIn_volumeAfter (s : Settings) (hlayout : s.layout = {}) (he : s.extensions.StayBelow)
    (v : Volume) (hv : v.IsPlain) (root : Path) (hroot : v.Grounded root) (rs : List Request) :
    s.layout.usedReduxDir (s.volumeAfter v root rs) root = s.layout.usedReduxDir v root ∧
      ∀ front r back, rs = front ++ r :: back →
        s.StaysIn (s.layout.usedReduxDir v root) root (s.volumeAfter v root front) r := by
  have hkeep : ∀ qs, s.layout.usedReduxDir (s.volumeAfter v root qs) root =
      s.layout.usedReduxDir v root := fun qs =>
    usedReduxDir_of_spares hlayout (volumeAfter_spares hlayout he hv hroot qs) hv hroot
  refine ⟨hkeep rs, ?_⟩
  rintro front r back -
  have hspares := volumeAfter_spares hlayout he hv hroot front
  have hstays := staysIn hlayout he hspares.plain (hspares.grounded hroot) r
  rwa [hkeep front] at hstays

end Settings

/-- A project that has the state in lowercase. -/
def lowerProject : Volume := ⟨⟨[(["src", "redux"], .dir), (["src"], .dir)]⟩, []⟩

/-- There are only directories in it. -/
theorem isPlain_lowerProject : lowerProject.IsPlain :=
  ⟨plain_of_directories (by decide), rfl⟩

namespace Settings

/-- A request for a slice. -/
def slice (name : String) : Request := ⟨.reducer, .ofList [("name", .text name)]⟩

section Small

-- what the operations on a small disk come to is found by following them
attribute [local simp] placeFiles placeFile createNew createFile exists? mkdirParent mkdirAll chain
  mkdirChain mkdir isDir find? Volume.set Disk.set Disk.get? locate walk Disk.steps bareSteps
  segmentStep Path.join Path.parent Path.ofReversed Path.idle Path.isAbsolute Path.empty
  Report.precede List.lookup_cons Except.isOk Except.toBool hasLowerState stateSpelling lowerProject

/-- The state in lowercase is found from a directory that is there, and not through one that is
missing. -/
theorem hasLowerState_lowerProject : lowerProject.hasLowerState ⟨".", []⟩ = true ∧
    lowerProject.hasLowerState ⟨"x", [".."]⟩ = false := by
  have hhere : ∀ rest ∈ [["src", "Redux"], ["src", "redux"]], admissible ⟨".", rest⟩ = .ok () := by
    decide
  have hmissing : ∀ rest ∈ [["..", "src", "Redux"], ["..", "src", "redux"]],
      admissible ⟨"x", rest⟩ = .ok () := by decide
  simp only [List.forall_mem_cons] at hhere hmissing
  constructor
  · simp +decide [hhere]
  · simp +decide [hmissing]

/-- A second slice of a project with the state in lowercase. -/
theorem staysIn_volumeAfter_wishlist :
    ({} : Settings).extensions.StayBelow ∧ lowerProject.IsPlain ∧ lowerProject.Grounded ⟨".", []⟩ ∧
      Settings.StaysIn {} ⟨"src", ["redux"]⟩ ⟨".", []⟩
        (Settings.volumeAfter {} lowerProject ⟨".", []⟩ [slice "Cart"]) (slice "Wishlist") := by
  have hbelow : ({} : Settings).extensions.StayBelow := by
    intro ending hending
    simp only [List.mem_cons, List.not_mem_nil, or_false] at hending
    rcases hending with rfl | rfl <;> decide
  have hgrounded : lowerProject.Grounded ⟨".", []⟩ := by
    intro front back hsteps
    have hup : .up ∈ Disk.steps ⟨".", []⟩ := by
      rw [hsteps]
      simp
    exact absurd hup (by decide)
  have hlower : Layout.usedReduxDir {} lowerProject ⟨".", []⟩ = ⟨"src", ["redux"]⟩ :=
    Layout.usedReduxDir_of_hasLowerState hasLowerState_lowerProject.1
  have hstays := (staysIn_volumeAfter {} rfl hbelow lowerProject isPlain_lowerProject ⟨".", []⟩
    hgrounded [slice "Cart", slice "Wishlist"]).2 [slice "Cart"] (slice "Wishlist") [] rfl
  rw [hlower] at hstays
  exact ⟨hbelow, isPlain_lowerProject, hgrounded, hstays⟩

/-- The way through a missing directory makes it, and then the state in lowercase is found. -/
theorem hasLowerState_missing (t d : String) :
    (lowerProject.placeFiles ⟨"x", ["..", "src", "Api"]⟩
      [⟨⟨"api.config.js", []⟩, t, d⟩]).2.hasLowerState ⟨"x", [".."]⟩ = true := by
  have hadmissible : ∀ rest ∈ [[], [".."], ["..", "src"], ["..", "src", "Api"],
      ["..", "src", "Api", "api.config.js"], ["..", "src", "Redux"], ["..", "src", "redux"]],
      admissible ⟨"x", rest⟩ = .ok () := by decide
  simp only [List.forall_mem_cons] at hadmissible
  simp +decide [hadmissible]

/-- A store whose extension goes up makes the directory of the state with a capital letter. -/
theorem hasLowerState_climbing (t d : String) :
    (lowerProject.placeFiles ⟨".", ["src", "redux"]⟩
      [⟨⟨"store.x", ["..", "..", "Redux", "a"]⟩, t, d⟩]).2.hasLowerState ⟨".", []⟩ = false := by
  have hadmissible : ∀ rest ∈ [["src", "redux", "store.x"], ["src", "redux", "store.x", ".."],
      ["src", "redux", "store.x", "..", ".."], ["src", "redux", "store.x", "..", "..", "Redux"],
      ["src", "redux", "store.x", "..", "..", "Redux", "a"], ["src", "Redux"], ["src", "redux"]],
      admissible ⟨".", rest⟩ = .ok () := by
    decide
  simp only [List.forall_mem_cons] at hadmissible
  simp +decide [hadmissible]

/-- A project in which there is nothing but a slice, whose extension has a slash. -/
def slicedProject (t : String) : Volume :=
  ⟨⟨[(["src", "Redux", "Foo", "Foo-reducer.a", "b"], .file (.text t)),
    (["src", "Redux", "Foo", "Foo-reducer.a"], .dir), (["src", "Redux", "Foo"], .dir),
    (["src", "Redux"], .dir), (["src"], .dir)]⟩, []⟩

/-- The slice is made in an empty directory. -/
theorem placeFiles_slice (t d : String) :
    Volume.placeFiles ⟨⟨[]⟩, []⟩ ⟨".", ["src", "Redux"]⟩ [⟨⟨"Foo", ["Foo-reducer.a", "b"]⟩, t, d⟩] =
      ((⟨[⟨".", ["src", "Redux", "Foo", "Foo-reducer.a", "b"]⟩], []⟩, none), slicedProject t) := by
  have hadmissible : ∀ rest ∈ [[], ["src"], ["src", "Redux"], ["src", "Redux", "Foo"],
      ["src", "Redux", "Foo", "Foo-reducer.a"], ["src", "Redux", "Foo", "Foo-reducer.a", "b"]],
      admissible ⟨".", rest⟩ = .ok () := by decide
  simp only [List.forall_mem_cons] at hadmissible
  simp +decide [hadmissible, slicedProject]

/-- There is no root reducer yet, and it can be written. -/
theorem write_rootReducer (t t' : String) :
    exists? (slicedProject t) ⟨".", ["src", "Redux", "root-reducer.a", "b"]⟩ = false ∧
    PatchedFile.write ⟨⟨".", ["src", "Redux", "root-reducer.a", "b"]⟩, t', true⟩ (slicedProject t) =
      (.ok (), ⟨⟨(["src", "Redux", "root-reducer.a", "b"], .file (.text t')) ::
        (["src", "Redux", "root-reducer.a"], .dir) :: (slicedProject t).disk.entries⟩, []⟩) := by
  have hadmissible : ∀ rest ∈ [["src", "Redux", "root-reducer.a"],
      ["src", "Redux", "root-reducer.a", "b"]], admissible ⟨".", rest⟩ = .ok () := by decide
  simp only [List.forall_mem_cons] at hadmissible
  constructor
  · simp +decide [hadmissible, slicedProject]
  · simp +decide [hadmissible, slicedProject, PatchedFile.write, writeFile]

/-- The state is not there in lowercase. -/
theorem hasLowerState_slice (t : String) : hasLowerState ⟨⟨[]⟩, []⟩ ⟨".", []⟩ = false ∧
    (slicedProject t).hasLowerState ⟨".", []⟩ = false := by
  have hadmissible : ∀ rest ∈ [["src", "Redux"], ["src", "redux"]],
      admissible ⟨".", rest⟩ = .ok () := by decide
  simp only [List.forall_mem_cons] at hadmissible
  constructor
  · simp +decide [hadmissible]
  · simp +decide [hadmissible, slicedProject]

end Small

/-- What a request that adds nothing to a registry leaves. -/
theorem volume_of_prepare {s : Settings} {v : Volume} {root : Path} {r : Request} {tree : FileTree}
    (h : s.prepare v root r = .ok (tree, none)) :
    (s.generate v root r).2 = s.filed v root r tree := by
  obtain ⟨o, -, -, ⟨-, hdone⟩ | ⟨e, patch, he, -⟩⟩ := exists_generate_eq h
  · exact hdone
  · cases he

/-- What comes of a request whose files are made and whose entry is added to a registry. -/
theorem generate_of_entered {s : Settings} {v w x : Volume} {root dir : Path} {r : Request}
    {tree : FileTree} {report : Report} {e : Template.RegistryEntry} {patch : PatchOutcome}
    (h : s.prepare v root r = .ok (tree, some e))
    (hdir : s.layout.directory v root r.archetype = dir)
    (hfiles : v.placeFiles (root.join dir) tree.files = ((report, none), w))
    (hregister : s.register e.aggregator w root (e.entry.rootedAt dir) = (patch, x)) :
    s.generate v root r = (.ok ⟨r.archetype, report, none, some patch⟩, x) := by
  subst hdir
  exact generate_eq_iff.mpr (.registered h hfiles hregister)

/-- Settings in which scripts have another extension. -/
def scripted (extension : String) : Settings := { extensions := { script := extension } }

/-- The lines of a root reducer in a directory of its own. -/
def rootReducerOfFoo : List String :=
  ["import \x7b combineReducers \x7d from '@reduxjs/toolkit';",
    "import \x7b fooReducer \x7d from '../Foo/Foo-reducer';",
    "",
    "export const rootReducer = combineReducers(\x7b",
    "    foo: fooReducer,",
    "\x7d);"]

/-- The root reducer of a slice whose extension has a slash begins with its seed. -/
theorem patchAggregator_slice (t : String) :
    (scripted "a/b").patchAggregator .reducerRegistry (slicedProject t) ⟨".", []⟩
        ((Template.reducerEntry "Foo").entry.rootedAt ⟨"src", ["Redux"]⟩) =
      .ok ⟨⟨".", ["src", "Redux", "root-reducer.a", "b"]⟩, Skeleton.text rootReducerOfFoo, true⟩ := by
  have hused := Layout.usedReduxDir_of_hasLowerState (hasLowerState_slice t).2
  have hpath : (scripted "a/b").aggregatorPath .reducerRegistry (slicedProject t) ⟨".", []⟩ =
      ⟨"src", ["Redux", "root-reducer.a", "b"]⟩ :=
    congrArg (fun dir => dir.join (.ofText "root-reducer.a/b")) hused
  have htext : (scripted "a/b").aggregatorText .reducerRegistry (slicedProject t) ⟨".", []⟩ =
      .ok (Skeleton.text (Aggregator.reducerRegistry.seed {} ⟨"src", []⟩), true) := by
    rw [aggregatorText, hpath]
    exact if_neg (Bool.eq_false_iff.mp (write_rootReducer t "").1)
  have hentered : Aggregator.reducerRegistry.withEntry ⟨"src", ["Redux", "root-reducer.a", "b"]⟩
      ((Template.reducerEntry "Foo").entry.rootedAt ⟨"src", ["Redux"]⟩)
      (Skeleton.text (Aggregator.reducerRegistry.seed {} ⟨"src", []⟩)) =
        some (Skeleton.text rootReducerOfFoo) := by
    decide +kernel
  rw [patchAggregator_eq htext, hpath, hentered]
  rfl

/-- The directory of the state does not always stay the same. A request makes a directory that was
missing, from which the root goes up, and then the state in lowercase is found; or the extension
leads a file into the other spelling. And a root reducer whose extension has a slash lies in a
directory of its own, from which it imports the slices. -/
theorem exists_restless :
    (lowerProject.IsPlain ∧
      Layout.usedReduxDir {} lowerProject ⟨"x", [".."]⟩ = ⟨"src", ["Redux"]⟩ ∧
      Layout.usedReduxDir {} (Settings.generate {} lowerProject ⟨"x", [".."]⟩ (.apiConfig "a")).2
        ⟨"x", [".."]⟩ = ⟨"src", ["redux"]⟩) ∧
    (Layout.usedReduxDir {} lowerProject ⟨".", []⟩ = ⟨"src", ["redux"]⟩ ∧
      Layout.usedReduxDir {} ((scripted "x/../../Redux/a").generate lowerProject ⟨".", []⟩
        ⟨.store, .ofList []⟩).2 ⟨".", []⟩ = ⟨"src", ["Redux"]⟩) ∧
    ∃ o w, (scripted "a/b").generate ⟨⟨[]⟩, []⟩ ⟨".", []⟩ (slice "Foo") = (.ok o, w) ∧
      o.patch = some (.patched .reducerRegistry ⟨".", ["src", "Redux", "root-reducer.a", "b"]⟩ true) ∧
      w.disk.get? ["src", "Redux", "root-reducer.a", "b"] =
        some (.file (.text (Skeleton.text rootReducerOfFoo))) := by
  obtain ⟨hhere, hmissing⟩ := hasLowerState_lowerProject
  have hlower : Layout.usedReduxDir {} lowerProject ⟨".", []⟩ = ⟨"src", ["redux"]⟩ :=
    Layout.usedReduxDir_of_hasLowerState hhere
  refine ⟨⟨isPlain_lowerProject, Layout.usedReduxDir_of_hasLowerState hmissing, ?_⟩,
    ⟨hlower, ?_⟩, ?_⟩
  · rw [volume_of_prepare rfl]
    exact Layout.usedReduxDir_of_hasLowerState (hasLowerState_missing _ _)
  · have hdirectory : (scripted "x/../../Redux/a").layout.directory lowerProject ⟨".", []⟩ .store =
        ⟨"src", ["redux"]⟩ := hlower
    rw [volume_of_prepare rfl, filed, hdirectory]
    exact Layout.usedReduxDir_of_hasLowerState (hasLowerState_climbing _ _)
  · obtain ⟨t, d, hprepare⟩ : ∃ t d, (scripted "a/b").prepare ⟨⟨[]⟩, []⟩ ⟨".", []⟩ (slice "Foo") =
        .ok (⟨[⟨⟨"Foo", ["Foo-reducer.a", "b"]⟩, t, d⟩]⟩, some (Template.reducerEntry "Foo")) :=
      ⟨_, _, rfl⟩
    have hdirectory : (scripted "a/b").layout.directory ⟨⟨[]⟩, []⟩ ⟨".", []⟩
        (slice "Foo").archetype = ⟨"src", ["Redux"]⟩ := Layout.usedReduxDir_of_hasLowerState (hasLowerState_slice t).1
    have hregister := register_eq _ (patchAggregator_slice t)
    rw [(write_rootReducer t (Skeleton.text rootReducerOfFoo)).2] at hregister
    exact ⟨_, _, generate_of_entered hprepare hdirectory (placeFiles_slice t d) hregister, rfl, rfl⟩

end Settings

end AppScaffold
