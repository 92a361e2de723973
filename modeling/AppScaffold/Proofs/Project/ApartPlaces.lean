import AppScaffold.Proofs.Disk.Lasting
import AppScaffold.Proofs.Project.ComponentFiles
import AppScaffold.Proofs.Project.Confinement
import AppScaffold.Proofs.Project.StateFiles

/-!
# Registries keep their places apart

Screens, slices and the two lists of screens have directories and files of their own in a layout, none
of them inside another. The directory of the state can still change to its spelling in lowercase, and
the root reducer with it. If neither list of screens is where the files of the state would then be, all
registries keep apart, and no file of a screen or slice is at the place of one. The root reducer is
looked up when the slice has been made, and it is found where the slice is.
-/

namespace AppScaffold

open Disk Volume

namespace Layout

variable {l : Layout}

/-- The directory of the state with its last name in lowercase. -/
def lowerReduxDir (l : Layout) : Path :=
  match l.reduxDir.fileName with
  | some name => l.reduxDir.withFileName (Text.lowercase name)
  | none => l.reduxDir

/-- The directories that the state can be in. -/
def stateDirs (l : Layout) : List Path := [l.reduxDir, l.lowerReduxDir]

/-- The directory of the state that is in use. -/
theorem usedReduxDir_eq (l : Layout) (v : Volume) (root : Path) :
    l.usedReduxDir v root =
      if v.isDir (root.join l.reduxDir) then l.reduxDir
      else if !l.lowerReduxDir.alike l.reduxDir && v.isDir (root.join l.lowerReduxDir) then
        l.lowerReduxDir
      else l.reduxDir := by
  have hself : l.reduxDir.alike l.reduxDir = true := beq_self_eq_true _
  rw [usedReduxDir, lowerReduxDir]
  cases l.reduxDir.fileName with
  | none => simp [hself]
  | some name => rfl

/-- The directory of the state that is in use is one of the two. -/
theorem usedReduxDir_mem (l : Layout) (v : Volume) (root : Path) :
    l.usedReduxDir v root ∈ l.stateDirs := by
  rw [usedReduxDir_eq]
  split_ifs <;> simp [stateDirs]

/-- The directory in lowercase lies beside the other one. -/
theorem lowerReduxDir_beside (h : l.reduxDir.IsDownward) :
    l.lowerReduxDir.IsDownward ∧ l.lowerReduxDir.names.length = l.reduxDir.names.length ∧
      l.lowerReduxDir.names.dropLast = l.reduxDir.names.dropLast := by
  unfold lowerReduxDir
  cases hname : l.reduxDir.fileName with
  | none => exact ⟨h, rfl, rfl⟩
  | some name =>
    obtain ⟨hmem, hsegment⟩ := h.isSegment_fileName hname
    have hne := Path.components_ne_nil_of_fileName hname
    have hslash := Text.notMem_slash_lowercase (h.slash name hmem)
    have hcomponents : (l.reduxDir.withFileName (Text.lowercase name)).components =
        (l.reduxDir.names.dropLast ++ [Text.lowercase name]).map .name := by
      rw [h.components_withFileName hne (Text.isSegment_lowercase hsegment) hslash, h.components,
        List.map_append, List.map_dropLast, List.map_singleton, Path.names]
    obtain ⟨hdown, hnames⟩ := Path.IsDownward.of_names hcomponents fun t ht => by
      rcases List.mem_append.mp ht with ht | ht
      · exact h.slash t (List.dropLast_subset _ ht)
      · rwa [List.mem_singleton.mp ht]
    have hlast := (h.exists_fileName hne).choose_spec.2
    refine ⟨hdown, ?_, ?_⟩
    · dsimp only
      rw [hnames, List.length_append, List.length_singleton]
      conv_rhs => rw [hlast, List.length_append, List.length_singleton]
    · dsimp only
      rw [hnames, List.dropLast_concat]

end Layout

namespace Settings

/-- The names of the root reducer and of a slice, from the directory of the state on. -/
inductive IsStateFile (s : Settings) : List String → Prop where
  /-- The root reducer. -/
  | rootReducer : IsStateFile s [s.extensions.scriptFile "root-reducer"]
  /-- A slice. -/
  | slice (name : String) : IsStateFile s [name, s.extensions.scriptFile (name ++ "-reducer")]

/-- The paths go down, and the directory of the screens, that of the state and the two lists of screens
are apart from each other. -/
structure IsApart (s : Settings) : Prop where
  /-- The paths go down, and the extensions stay within a name. -/
  downward : s.IsDownward
  /-- None of the four is another one or inside another one. -/
  apart : [s.layout.screensDir, s.layout.reduxDir, s.layout.screenRegistry,
    s.layout.loginRegistry].Pairwise fun p q => ¬p.names <+: q.names ∧ ¬q.names <+: p.names
  /-- There is no line end in the directory of the screens. -/
  lines : ∀ name ∈ s.layout.screensDir.names, '\n' ∉ name.toList

/-- Neither list of screens is where the root reducer or a slice would be in the lowercase directory. -/
def LeavesState (s : Settings) : Prop :=
  ∀ registry ∈ [s.layout.screenRegistry, s.layout.loginRegistry], ∀ names, s.IsStateFile names →
    registry.names ≠ s.layout.lowerReduxDir.names ++ names

/-- The names in a path that a registry can have. -/
def IsRegistryAt (s : Settings) (a : Aggregator) (names : List String) : Prop :=
  ∃ dir ∈ s.layout.stateDirs, (a.path s dir).names = names

variable {s : Settings} {a b : Aggregator} {dir dir' : Path} {names : List String}

/-- The two directories that the state can be in go down, and they lie beside each other. -/
theorem IsDownward.stateDir (h : s.IsDownward) (hdir : dir ∈ s.layout.stateDirs) :
    dir.IsDownward ∧ dir.names.length = s.layout.reduxDir.names.length ∧
      dir.names.dropLast = s.layout.reduxDir.names.dropLast := by
  have hredux : s.layout.reduxDir.IsDownward := h.paths _ (by simp [Layout.paths])
  simp only [Layout.stateDirs, List.mem_cons, List.not_mem_nil, or_false] at hdir
  rcases hdir with rfl | rfl
  · exact ⟨hredux, rfl, rfl⟩
  · exact Layout.lowerReduxDir_beside hredux

/-- The names of the root reducer. -/
theorem IsDownward.names_rootReducer (h : s.IsDownward) (dir : Path) :
    (Aggregator.reducerRegistry.path s dir).names =
      dir.names ++ [s.extensions.scriptFile "root-reducer"] := by
  have hfile : IsEntryName (s.extensions.scriptFile "root-reducer") :=
    IsStem.isEntryName ⟨by decide, 'r', by decide, by decide⟩ (h.extensions _ (by simp))
  rw [Aggregator.path, Path.ofText_of_notMem hfile.slash, Path.names_join_file dir hfile.segment]

namespace IsApart

/-- The directory of the screens is apart from that of the state and from the lists of screens. -/
theorem screensDir (h : s.IsApart) {p : Path}
    (hp : p ∈ [s.layout.reduxDir, s.layout.screenRegistry, s.layout.loginRegistry]) :
    ¬s.layout.screensDir.names <+: p.names :=
  ((List.pairwise_cons.mp h.apart).1 p hp).1

/-- The lists of screens are not where files of the state can be. -/
theorem registry_ne (h : s.IsApart) (hstate : s.LeavesState) {registry : Path}
    (hregistry : registry ∈ [s.layout.screenRegistry, s.layout.loginRegistry])
    (hdir : dir ∈ s.layout.stateDirs) (hnames : s.IsStateFile names) :
    registry.names ≠ dir.names ++ names := by
  simp only [Layout.stateDirs, List.mem_cons, List.not_mem_nil, or_false] at hdir
  rcases hdir with rfl | rfl
  · have hapart := (List.pairwise_cons.mp (List.pairwise_cons.mp h.apart).2).1 registry hregistry
    intro heq
    exact hapart.1 (heq ▸ List.prefix_append ..)
  · exact hstate registry hregistry names hnames

/-- The two lists of screens are not in one place. -/
theorem screenRegistry_ne (h : s.IsApart) :
    s.layout.screenRegistry.names ≠ s.layout.loginRegistry.names := by
  have hrest := (List.pairwise_cons.mp (List.pairwise_cons.mp h.apart).2).2
  intro heq
  exact ((List.pairwise_cons.mp hrest).1 _ List.mem_cons_self).1 (heq ▸ List.prefix_rfl)

/-- No two of the lists and tables are in one place. -/
theorem registry_inj (h : s.IsApart) (hstate : s.LeavesState) (ha : a.frame ≠ none)
    (hb : b.frame ≠ none) (hat : s.IsRegistryAt a names) (hbt : s.IsRegistryAt b names) : a = b := by
  obtain ⟨dir, hdir, rfl⟩ := hat
  obtain ⟨dir', hdir', heq⟩ := hbt
  have hroot : ∀ dir ∈ s.layout.stateDirs, s.layout.screenRegistry.names ≠
        (Aggregator.reducerRegistry.path s dir).names ∧
      s.layout.loginRegistry.names ≠ (Aggregator.reducerRegistry.path s dir).names := by
    intro dir hdir
    rw [h.downward.names_rootReducer]
    exact ⟨h.registry_ne hstate (by simp) hdir .rootReducer,
      h.registry_ne hstate (by simp) hdir .rootReducer⟩
  cases a with
  | screenRegistry =>
    cases b with
    | screenRegistry => rfl
    | loginRegistry => exact absurd heq.symm h.screenRegistry_ne
    | reducerRegistry => exact absurd heq.symm (hroot dir' hdir').1
    | apiFunctions | screenApi _ => exact absurd rfl hb
  | loginRegistry =>
    cases b with
    | screenRegistry => exact absurd heq h.screenRegistry_ne
    | loginRegistry => rfl
    | reducerRegistry => exact absurd heq.symm (hroot dir' hdir').2
    | apiFunctions | screenApi _ => exact absurd rfl hb
  | reducerRegistry =>
    cases b with
    | screenRegistry => exact absurd heq (hroot dir hdir).1
    | loginRegistry => exact absurd heq (hroot dir hdir).2
    | reducerRegistry => rfl
    | apiFunctions | screenApi _ => exact absurd rfl hb
  | apiFunctions | screenApi _ => exact absurd rfl ha

/-- No list or table is at the place of a file of a screen. -/
theorem ne_screen (h : s.IsApart) (ha : a.frame ≠ none) (hat : s.IsRegistryAt a names)
    (name file : String) : names ≠ s.layout.screensDir.names ++ [name, file] := by
  obtain ⟨dir, hdir, rfl⟩ := hat
  have hlist : ∀ p ∈ [s.layout.reduxDir, s.layout.screenRegistry, s.layout.loginRegistry],
      p.names ≠ s.layout.screensDir.names ++ [name, file] := by
    intro p hp heq
    exact h.screensDir hp (heq ▸ List.prefix_append ..)
  cases a with
  | screenRegistry => exact hlist s.layout.screenRegistry (by simp)
  | loginRegistry => exact hlist s.layout.loginRegistry (by simp)
  | reducerRegistry =>
    -- the directory of the screens would be the parent of that of the state
    rw [h.downward.names_rootReducer]
    intro heq
    have hdirs := congrArg (fun names => names.dropLast.dropLast) heq
    rw [List.dropLast_concat, (h.downward.stateDir hdir).2.2, List.append_cons, List.dropLast_concat,
      List.dropLast_concat] at hdirs
    exact h.screensDir (by simp) (hdirs ▸ List.dropLast_prefix _)
  | apiFunctions | screenApi _ => exact absurd rfl ha

/-- No list or table is at the place of a slice. -/
theorem ne_slice (h : s.IsApart) (hstate : s.LeavesState) (ha : a.frame ≠ none)
    (hat : s.IsRegistryAt a names) (hdir : dir ∈ s.layout.stateDirs) (name : String) :
    names ≠ dir.names ++ [name, s.extensions.scriptFile (name ++ "-reducer")] := by
  obtain ⟨dir', hdir', rfl⟩ := hat
  have hlist : ∀ registry ∈ [s.layout.screenRegistry, s.layout.loginRegistry], registry.names ≠
      dir.names ++ [name, s.extensions.scriptFile (name ++ "-reducer")] := fun registry hregistry =>
    h.registry_ne hstate hregistry hdir (.slice name)
  cases a with
  | screenRegistry => exact hlist s.layout.screenRegistry (by simp)
  | loginRegistry => exact hlist s.layout.loginRegistry (by simp)
  | reducerRegistry =>
    rw [h.downward.names_rootReducer]
    intro heq
    have hlength := congrArg List.length heq
    rw [List.length_append, List.length_append, (h.downward.stateDir hdir).2.1,
      (h.downward.stateDir hdir').2.1] at hlength
    simp at hlength
  | apiFunctions | screenApi _ => exact absurd rfl ha

end IsApart

/-- What a request for a screen or a slice amounts to. -/
inductive Prepares (s : Settings) (v : Volume) (root : Path) (r : Request) (tree : FileTree) :
    Template.RegistryEntry → Prop where
  /-- A screen has files in the directory of the screens, and its entry goes to one of the lists. -/
  | screen {list : Aggregator} {name : String} (hlist : list = .screenRegistry ∨ list = .loginRegistry)
    (hname : Name.isIdentifier name = true)
    (hdirectory : s.layout.directory v root r.archetype = s.layout.screensDir)
    (hfiles : ∀ f ∈ tree.files, ∃ file, IsEntryName file ∧ f.path = ⟨name, [file]⟩) :
    Prepares s v root r tree (Template.screenEntry list name)
  /-- A slice is one file in the directory of the state, and its entry goes to the root reducer. -/
  | slice {name : String} {f : GeneratedFile} (hname : Name.isIdentifier name = true)
    (hdirectory : s.layout.directory v root r.archetype = s.layout.usedReduxDir v root)
    (hfiles : tree.files = [f])
    (hpath : f.path = ⟨name, [s.extensions.scriptFile (name ++ "-reducer")]⟩) :
    Prepares s v root r tree (Template.reducerEntry name)

variable {v : Volume} {root : Path} {r : Request} {tree : FileTree}
  {entry : Option Template.RegistryEntry} {e : Template.RegistryEntry}

/-- The files of a screen are in its directory. -/
theorem IsDownward.exists_path_of_mem (h : s.IsDownward) {name kind : String}
    (hname : Name.isIdentifier name = true) {component styles : List String} {f : GeneratedFile}
    (hf : f ∈ (Template.componentTree s.extensions name kind component styles).files) :
    ∃ file, IsEntryName file ∧ f.path = ⟨name, [file]⟩ := by
  have hstem := (Template.sinks_of_isIdentifier hname).2
  have hfile : ∀ stem ending : String, IsStem stem →
      ending ∈ [s.extensions.component, s.extensions.script] →
        IsEntryName (stem ++ "." ++ ending) ∧
          Template.within name (stem ++ "." ++ ending) = ⟨name, [stem ++ "." ++ ending]⟩ := by
    intro stem ending hstem hending
    have hentry := hstem.isEntryName (h.extensions ending hending)
    exact ⟨hentry, Template.within_identifier hname hentry.slash⟩
  have hmem := FileTree.mem_of_mem_ofList hf
  simp only [List.mem_cons, List.not_mem_nil, or_false] at hmem
  rcases hmem with rfl | rfl | rfl
  · exact ⟨_, hfile name _ hstem (by simp)⟩
  · exact ⟨_, hfile (name ++ ".style") _ (Template.isStem_append hname (by decide)) (by simp)⟩
  · exact ⟨_, hfile "index" _ ⟨by decide, 'i', by decide, by decide⟩ (by simp)⟩

/-- A request for a screen or a slice that is accepted has an entry for a registry. -/
theorem IsDownward.prepares (h : s.IsDownward)
    (hr : r.archetype = .screen ∨ r.archetype = .loginScreen ∨ r.archetype = .reducer)
    (hprepare : s.prepare v root r = .ok (tree, entry)) :
    ∃ e, entry = some e ∧ s.Prepares v root r tree e := by
  have htree := instantiate_of_prepare hprepare
  have hentry := registryEntry_of_prepare hprepare
  have hscreen : ∀ archetype, archetype = .screen ∨ archetype = .loginScreen →
      r.archetype = archetype → ∃ e, entry = some e ∧ s.Prepares v root r tree e := by
    intro archetype hkind hr
    rw [hr] at htree hentry
    obtain ⟨name, kind, component, styles, hgiven, hname, -, rfl⟩ :=
      Template.exists_of_instantiate_component (hkind.imp_right .inl) htree
    rw [Template.registryEntry_screen hkind hgiven hname] at hentry
    refine ⟨_, (Except.ok.inj hentry).symm, .screen ?_ hname ?_ fun f hf =>
      h.exists_path_of_mem hname hf⟩
    · split_ifs
      · exact .inl rfl
      · exact .inr rfl
    · rw [hr]
      rcases hkind with rfl | rfl <;> rfl
  rcases hr with hr | hr | hr
  · exact hscreen _ (.inl rfl) hr
  · exact hscreen _ (.inr rfl) hr
  · rw [hr] at htree hentry
    obtain ⟨name, f, hgiven, hname, hfiles, hpath⟩ := Template.exists_of_instantiate_reducer htree
    rw [Template.registryEntry_reducer hgiven hname] at hentry
    have hfile := (Template.isStem_append hname (by decide : '/' ∉ "-reducer".toList)).isEntryName
      (h.extensions s.extensions.script (by simp))
    rw [Extensions.scriptFile, Template.within_identifier hname hfile.slash] at hpath
    refine ⟨_, (Except.ok.inj hentry).symm, .slice hname ?_ hfiles hpath⟩
    rw [hr]
    rfl

/-- The directory of the state is not the root of the project. -/
theorem IsApart.stateDir_ne (h : s.IsApart) (hdir : dir ∈ s.layout.stateDirs) : dir.names ≠ [] := by
  have hapart := (List.pairwise_cons.mp h.apart).1 s.layout.reduxDir List.mem_cons_self
  intro hnil
  have hlength := (h.downward.stateDir hdir).2.1
  rw [hnil, List.length_nil] at hlength
  refine hapart.2 ?_
  rw [List.eq_nil_of_length_eq_zero hlength.symm]
  exact List.nil_prefix

/-- The name of the file of a slice. -/
theorem IsDownward.isEntryName_slice (h : s.IsDownward) {name : String}
    (hname : Name.isIdentifier name = true) :
    IsEntryName (s.extensions.scriptFile (name ++ "-reducer")) :=
  (Template.isStem_append hname (by decide : '/' ∉ "-reducer".toList)).isEntryName
    (h.extensions s.extensions.script (by simp))

/-- A file in a directory that is called after an identifier leads down from the root. -/
theorem leadsDown_target (hdir : dir.IsDownward) (root : Path) {name file : String}
    (hname : Name.isIdentifier name = true) (hfile : IsEntryName file) :
    Path.LeadsDown root ((root.join dir).join ⟨name, [file]⟩) (dir.names ++ [name, file]) := by
  obtain ⟨hdown, hnames⟩ := Path.isDownward_of_entryNames name [file]
    (by simpa using ⟨IsEntryName.of_isIdentifier hname, hfile⟩)
  have hleads := ((Path.LeadsDown.refl root).join hdir).join hdown
  rwa [hnames] at hleads

/-- No list or table is at the place of a file of a screen or slice. -/
theorem IsApart.ne_target (h : s.IsApart) (hstate : s.LeavesState)
    (hprepares : s.Prepares v root r tree e) (ha : a.frame ≠ none) (hat : s.IsRegistryAt a names)
    {f : GeneratedFile} (hf : f ∈ tree.files) :
    v.place root ++ names ≠ v.place (s.target v root r f) := by
  have hscreens : s.layout.screensDir.IsDownward := h.downward.paths _ (by simp [Layout.paths])
  cases hprepares with
  | screen _ hname hdirectory hfiles =>
    obtain ⟨file, hfile, hpath⟩ := hfiles f hf
    rw [target, hdirectory, hpath, place_of_leadsDown (leadsDown_target hscreens root hname hfile)]
    exact fun heq => h.ne_screen ha hat _ _ (List.append_cancel_left heq)
  | @slice name g hname hdirectory hfiles hpath =>
    rw [hfiles, List.mem_singleton] at hf
    have hdir := s.layout.usedReduxDir_mem v root
    rw [target, hdirectory, hf, hpath, place_of_leadsDown (leadsDown_target
      (h.downward.stateDir hdir).1 root hname (h.downward.isEntryName_slice hname))]
    exact fun heq => h.ne_slice hstate ha hat hdir name (List.append_cancel_left heq)

/-- Where a file was placed below a directory the directory is found. -/
theorem isDir_of_placeFiles (hv : v.IsPlain) (hroot : v.Grounded root) (hdir : dir.IsDownward)
    (hne : dir.names ≠ []) {files : List GeneratedFile} {report : Report} {w : Volume}
    (hmade : v.placeFiles (root.join dir) files = ((report, none), w)) {f : GeneratedFile}
    (hf : f ∈ files) {name file : String} (hpath : f.path = ⟨name, [file]⟩)
    (hname : Name.isIdentifier name = true) (hfile : IsEntryName file) :
    w.isDir (root.join dir) = true := by
  have hfiled := placeFiles_filed hv (root.join dir) files
  rw [hmade] at hfiled
  have hadded := hfiled.added
  have hsegment := (isSegment_of_isIdentifier hname).1
  have hdown : Path.LeadsDown root (root.join dir) dir.names := (Path.LeadsDown.refl root).join hdir
  have hgrounded : w.Grounded (root.join dir) := (hadded.toGrown.grounded hroot).leadsDown hdown
  refine (isDir_iff hadded.plain hgrounded).mpr ⟨?_, ?_⟩
  · have hslash : ¬endsWithSlash ((root.join dir).join f.path) := by
      rw [hpath, Path.endsWithSlash_join (isSegment_iff.mp hsegment).1]
      simpa [endsWithSlash] using (isSegment_iff.mp hfile.segment).1
    have hpassable := isPassable_of_placeFiles hmade hf hslash
    have hnonempty : root.join dir ≠ Path.empty := by
      intro hempty
      have hbare := Path.bareSteps_join (p := root) hdir.isAbsolute
      rw [hempty] at hbare
      have hnil := hdir.destination.2 []
      rw [(List.append_eq_nil_iff.mp hbare.symm).2] at hnil
      exact hne hnil.symm
    rw [hpath] at hpassable
    exact hpassable.of_join hnonempty (Path.isAbsolute_of_first (isSegment_iff.mp hsegment).1)
  · obtain ⟨e, he⟩ := exists_of_placeFiles hv hmade hf
    rw [hpath, place_of_leadsDown (leadsDown_target hdir root hname hfile)] at he
    rw [hadded.place_eq, place_of_leadsDown hdown]
    refine hadded.plain.disk.rooted _ e he _ ?_ ?_
    · rw [← List.append_assoc]
      exact List.prefix_append ..
    · simp

/-- Files below a directory make no directory at the place of another one beside it. -/
theorem placeFiles_spares_beside (hv : v.IsPlain) (hroot : v.Grounded root) {other : Path}
    (hdir : dir.IsDownward) (hother : other.IsDownward) (hne : dir.names ≠ other.names)
    (hlength : dir.names.length = other.names.length) {files : List GeneratedFile}
    (hfiles : ∀ f ∈ files, f.path.IsDownward ∧ f.path.names ≠ []) :
    Spares v (v.placeFiles (root.join dir) files).2 (v.place (root.join other)) := by
  have hfiled := placeFiles_filed hv (root.join dir) files
  have hleads : ∀ f ∈ files, Path.LeadsDown root ((root.join dir).join f.path)
      (dir.names ++ f.path.names) := fun f hf =>
    ((Path.LeadsDown.refl root).join hdir).join (hfiles f hf).1
  have hbeside : v.place (root.join other) = v.place root ++ other.names :=
    place_of_leadsDown ((Path.LeadsDown.refl root).join hother)
  refine hfiled.added.spares fun hfree hnew => ?_
  rcases hnew with ⟨-, f, hf, habove⟩ | ⟨p, hp, hplace⟩
  · rcases (hroot.leadsDown (hleads f hf)).above_cases hv habove with hthere | hpref
    · rw [hfree] at hthere
      cases hthere
    · rw [hbeside, place_of_leadsDown (hleads f hf), List.prefix_append_right_inj] at hpref
      have hsame := List.prefix_of_prefix_length_le hpref (List.prefix_append ..) hlength.ge
      exact hne (hsame.eq_of_length hlength.symm).symm
  · obtain ⟨f, hf, rfl, -⟩ := hfiled.created p hp
    rw [hbeside, place_of_leadsDown (hleads f hf), List.append_cancel_left_eq] at hplace
    have hlonger := congrArg List.length hplace
    rw [List.length_append, hlength] at hlonger
    exact (hfiles f hf).2 (List.eq_nil_of_length_eq_zero (by omega))

/-- The directory in which a slice was made is found again when the slice is there. -/
theorem IsApart.usedReduxDir_eq (h : s.IsApart) (hv : v.IsPlain) (hroot : v.Grounded root)
    {name : String} {f : GeneratedFile} (hname : Name.isIdentifier name = true)
    (hfiles : tree.files = [f])
    (hpath : f.path = ⟨name, [s.extensions.scriptFile (name ++ "-reducer")]⟩) {report : Report}
    {w : Volume}
    (hmade : v.materialize (root.join (s.layout.usedReduxDir v root)) tree = ((report, none), w)) :
    s.layout.usedReduxDir w root = s.layout.usedReduxDir v root := by
  have hmem := s.layout.usedReduxDir_mem v root
  have hused := s.layout.usedReduxDir_eq v root
  rw [materialize, hfiles] at hmade
  generalize s.layout.usedReduxDir v root = dir at hmem hused hmade
  obtain ⟨hdir, hlength, -⟩ := h.downward.stateDir hmem
  have hredux : s.layout.reduxDir.IsDownward := h.downward.paths _ (by simp [Layout.paths])
  have hfile := h.downward.isEntryName_slice hname
  have hthere := isDir_of_placeFiles hv hroot hdir (h.stateDir_ne hmem) hmade List.mem_cons_self hpath
    hname hfile
  rw [Layout.usedReduxDir_eq]
  split_ifs at hused with hbefore hlower
  · rw [if_pos (hused ▸ hthere), hused]
  · -- the other spelling was not there, and it is not made on the way to the slice
    rw [Bool.and_eq_true, Bool.not_eq_true'] at hlower
    have hother : w.isDir (root.join s.layout.reduxDir) = false := by
      have hne : dir.names ≠ s.layout.reduxDir.names := by
        intro heq
        rw [← hused, Path.alike, hdir.components, heq, ← hredux.components] at hlower
        simp at hlower
      have hbelow : ∀ g ∈ [f], g.path.IsDownward ∧ g.path.names ≠ [] := by
        intro g hg
        obtain ⟨hdown, hnames⟩ := Path.isDownward_of_entryNames name
          [s.extensions.scriptFile (name ++ "-reducer")]
          (by simpa using ⟨IsEntryName.of_isIdentifier hname, hfile⟩)
        rw [List.mem_singleton.mp hg, hpath, hnames]
        exact ⟨hdown, List.cons_ne_nil _ _⟩
      have hspares := placeFiles_spares_beside hv hroot hdir hredux hne hlength hbelow
      rw [hmade] at hspares
      have hgrounded := hroot.leadsDown ((Path.LeadsDown.refl root).join hredux)
      rw [hspares.isDir_eq hv hgrounded]
      exact Bool.eq_false_iff.mpr hbefore
    rw [if_neg (by simp [hother]), hlower.1, ← hused, hthere]
    rfl
  · rw [if_pos (hused ▸ hthere), hused]

end Settings

end AppScaffold
