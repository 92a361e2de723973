import AppScaffold.Answer
import AppScaffold.Proofs.Disk.Confining
import AppScaffold.Proofs.Project.StateDirectory

/-!
# Requests stay in their project

Names of artifacts and screens, and the name of a project, are spliced into paths. All of them are
checked to be names of entries before, and so are the names of files, if the extensions have no slashes.
In a layout of paths that go down, whatever is asked for, a request writes only at the path of its
registry and in the directory of its archetype, and it makes directories only on the way there.
-/

namespace AppScaffold

open Disk Volume

/-- The text is the name of an entry of a directory. -/
structure IsEntryName (s : String) : Prop where
  /-- It is not empty and not made of one or two dots. -/
  segment : IsSegment s
  /-- There is no slash in it. -/
  slash : '/' ∉ s.toList

/-- Identifiers are names of entries. -/
theorem IsEntryName.of_isIdentifier {name : String} (h : Name.isIdentifier name = true) :
    IsEntryName name :=
  ⟨(isSegment_of_isIdentifier h).1, (Template.notMem_of_isIdentifier h).1⟩

/-- What is accepted as the name of a project is the name of an entry. -/
theorem Answer.isEntryName_of_projectName {raw name : String}
    (h : Answer.projectName raw = .ok name) : IsEntryName name := by
  unfold projectName at h
  dsimp only at h
  split_ifs at h with hempty hbreaks hdots
  obtain rfl := Except.ok.inj h
  simp only [Bool.or_eq_true, decide_eq_true_eq, not_or] at hdots
  refine ⟨isSegment_iff.mpr ⟨hempty, hdots⟩, fun hslash => hbreaks ?_⟩
  exact List.any_eq_true.mpr ⟨'/', hslash, by simp [breaksProjectName]⟩

/-- A stem with an extension is the name of an entry. -/
theorem IsStem.isEntryName {stem ending : String} (h : IsStem stem) (hending : '/' ∉ ending.toList) :
    IsEntryName (stem ++ "." ++ ending) := by
  obtain ⟨hslash, c, hc, hdot⟩ := h
  exact ⟨isSegment_of_mem (c := c) (by simp [hc]) hdot, by simp [hslash, hending]⟩

namespace Path

variable {p : Path} {s : String}

/-- Names of entries make up a path that goes down. -/
theorem isDownward_of_entryNames (s : String) (rest : List String)
    (h : ∀ t ∈ s :: rest, IsEntryName t) :
    (⟨s, rest⟩ : Path).IsDownward ∧ (⟨s, rest⟩ : Path).names = s :: rest := by
  obtain ⟨hs, hrest⟩ := List.forall_mem_cons.mp h
  refine IsDownward.of_names ?_ fun t ht => (h t ht).slash
  rw [components_of_isSegment (p := ⟨s, rest⟩) hs.segment,
    filterMap_of_isSegment fun t ht => (hrest t ht).segment, List.map_cons]

/-- A path goes down still if the name of an entry follows. -/
theorem IsDownward.join_ofText (h : p.IsDownward) (hs : IsEntryName s) :
    (p.join (.ofText s)).IsDownward := by
  have hcomponents : (p.join (.ofText s)).components = (p.names ++ [s]).map .name := by
    rw [ofText_of_notMem hs.slash, h.components_join hs.segment rfl]
  refine (IsDownward.of_names hcomponents fun t ht => ?_).1
  rcases List.mem_append.mp ht with ht | ht
  · exact h.slash t ht
  · rw [List.mem_singleton.mp ht]
    exact hs.slash

end Path

/-- All paths of a layout. -/
def Layout.paths (l : Layout) : List Path :=
  [l.screensDir, l.componentsDir, l.reduxDir, l.apiDir, l.navigationDir, l.screenRegistry,
    l.loginRegistry]

/-- The paths of the layout go down, and the extensions have no slashes. -/
structure Settings.IsDownward (s : Settings) : Prop where
  /-- The paths go down. -/
  paths : ∀ p ∈ s.layout.paths, p.IsDownward
  /-- The extensions stay within a name. -/
  extensions : ∀ ending ∈ [s.extensions.component, s.extensions.script], '/' ∉ ending.toList

/-- Settings with ordinary paths are such settings. -/
theorem Settings.IsOrdinary.isDownward {s : Settings} (h : s.IsOrdinary) : s.IsDownward where
  paths p hp := (h.paths p hp).isDownward
  extensions := by simpa using h.extensions

/-- The names of a file of an artifact, from the directory of its archetype on: that of the file, or that
of the artifact and that of the file. -/
inductive Template.IsOwn (p : Parameters) : List String → Prop where
  /-- A file in the directory of the archetype. -/
  | directly {file : String} (hfile : IsEntryName file) : IsOwn p [file]
  /-- A file in the directory of the artifact. -/
  | named {name file : String} (hgiven : p.text "name" = some name)
    (hname : Name.isIdentifier name = true) (hfile : IsEntryName file) : IsOwn p [name, file]

/-- Files of artifacts have paths that go down. -/
theorem Template.PutsAt.isOwn {e : Extensions} {p : Parameters} {path : Path} (h : PutsAt e p path)
    (he : ∀ ending ∈ [e.component, e.script], '/' ∉ ending.toList) :
    path.IsDownward ∧ IsOwn p path.names := by
  cases h with
  | @directly stem ending hstem hending =>
    have hfile := hstem.isEntryName (he ending hending)
    rw [Path.ofText_of_notMem hfile.slash]
    obtain ⟨hdown, hnames⟩ := Path.isDownward_of_entryNames _ [] (by simpa using hfile)
    rw [hnames]
    exact ⟨hdown, .directly hfile⟩
  | @named name stem ending hgiven hname hstem hending =>
    have hfile := hstem.isEntryName (he ending hending)
    rw [within_identifier hname hfile.slash]
    obtain ⟨hdown, hnames⟩ := Path.isDownward_of_entryNames name [stem ++ "." ++ ending]
      (by simpa using ⟨IsEntryName.of_isIdentifier hname, hfile⟩)
    rw [hnames]
    exact ⟨hdown, .named hgiven hname hfile⟩

namespace Settings

variable {s : Settings} {v w : Volume} {root : Path} {r : Request} {tree : FileTree}
  {entry : Option Template.RegistryEntry}

namespace IsDownward

/-- The directory of an archetype goes down from the root of the project. -/
theorem directory (h : s.IsDownward) (v : Volume) (root : Path) (a : Archetype) :
    (s.layout.directory v root a).IsDownward := by
  cases a with
  | screen | loginScreen | screenApi => exact h.paths s.layout.screensDir (by simp [Layout.paths])
  | component => exact h.paths s.layout.componentsDir (by simp [Layout.paths])
  | reducer | store =>
    exact Layout.isDownward_usedReduxDir (h.paths s.layout.reduxDir (by simp [Layout.paths])) v root
  | apiConfig | apiFunction => exact h.paths s.layout.apiDir (by simp [Layout.paths])
  | navigation => exact h.paths s.layout.navigationDir (by simp [Layout.paths])

/-- The path of a registry goes down from the root of the project. -/
theorem aggregatorPath (h : s.IsDownward) {a : Aggregator} (ha : a.IsNamed) (v : Volume)
    (root : Path) : (s.aggregatorPath a v root).IsDownward := by
  have hscript : '/' ∉ s.extensions.script.toList := h.extensions _ (by simp)
  cases a with
  | screenRegistry => exact h.paths s.layout.screenRegistry (by simp [Layout.paths])
  | loginRegistry => exact h.paths s.layout.loginRegistry (by simp [Layout.paths])
  | reducerRegistry =>
    exact (h.directory v root .reducer).join_ofText
      (IsStem.isEntryName ⟨by decide, 'r', by decide, by decide⟩ hscript)
  | apiFunctions =>
    exact (h.directory v root .apiFunction).join_ofText
      (IsStem.isEntryName ⟨by decide, 'a', by decide, by decide⟩ hscript)
  | screenApi screen =>
    exact ((h.directory v root .screenApi).join_ofText (.of_isIdentifier (ha screen rfl))).join_ofText
      (IsStem.isEntryName ⟨by decide, 'a', by decide, by decide⟩ hscript)

end IsDownward

/-- The places where a request may write: from the root of the project on, the names in the path of its
registry, as it is resolved when the files are there, or those in the directory of its archetype and
those of one of its files. -/
inductive MayWrite (s : Settings) (v : Volume) (root : Path) (r : Request) : Location → Prop where
  /-- The registry. -/
  | registry {tree : FileTree} {e : Template.RegistryEntry}
    (hprepare : s.prepare v root r = .ok (tree, some e))
    (hbelow : (s.aggregatorPath e.aggregator (s.filed v root r tree) root).names ≠ []) :
    MayWrite s v root r
      (v.place root ++ (s.aggregatorPath e.aggregator (s.filed v root r tree) root).names)
  /-- A file of the artifact. -/
  | own {names : List String} (hown : Template.IsOwn r.params names) :
    MayWrite s v root r (v.place root ++ ((s.layout.directory v root r.archetype).names ++ names))

/-- The making of the files of a request is confined. -/
theorem filed_confined (h : s.IsDownward) (hv : v.IsPlain)
    (hprepare : s.prepare v root r = .ok (tree, entry)) :
    Confined (s.MayWrite v root r) (v.Along root) v (s.filed v root r tree) := by
  have hleads : ∀ f ∈ tree.files, Template.IsOwn r.params f.path.names ∧
      Path.LeadsDown root ((root.join (s.layout.directory v root r.archetype)).join f.path)
        ((s.layout.directory v root r.archetype).names ++ f.path.names) := by
    intro f hf
    obtain ⟨hdown, hown⟩ :=
      (Template.putsAt_of_instantiate (instantiate_of_prepare hprepare) f hf).isOwn h.extensions
    exact ⟨hown, ((Path.LeadsDown.refl root).join (h.directory v root r.archetype)).join hdown⟩
  refine (placeFiles_confined hv _ tree.files).mono ?_ ?_
  · rintro loc ⟨f, hf, rfl⟩
    obtain ⟨hown, hlead⟩ := hleads f hf
    rw [place_of_leadsDown hlead]
    exact .own hown
  · rintro loc ⟨f, hf, habove⟩
    exact along_of_leadsDown (hleads f hf).2 habove

/-- The adding of an entry is confined to the path of the registry and the way there. -/
theorem register_confined (hv : v.IsPlain) (a : Aggregator) (root : Path) (added : Script.Entry) :
    Confined
      (fun loc => v.place (root.join (s.aggregatorPath a v root)) = loc ∧
        (root.join (s.aggregatorPath a v root)).NamesFile)
      (v.Above (root.join (s.aggregatorPath a v root))) v (s.register a v root added).2 := by
  have hadded := mkdirParent_added hv (root.join (s.aggregatorPath a v root))
  obtain hsame | hdirs | ⟨t, hwritten⟩ := register_cases s a v root added
  · rw [hsame]
    exact .refl v
  · rw [hdirs]
    exact mkdirParent_confined hv _
  · have hfile : Confined _ (v.Above (root.join (s.aggregatorPath a v root))) _ _ :=
      writeFile_confined hadded.plain.disk.links (root.join (s.aggregatorPath a v root)) t
    rw [hadded.place_eq] at hfile
    rw [hwritten]
    exact (mkdirParent_confined hv _).trans hfile

/-- The adding of the entry of a request, once its files have been made, is confined. -/
theorem registered_confined (h : s.IsDownward) (hv : v.IsPlain) {e : Template.RegistryEntry}
    (hprepare : s.prepare v root r = .ok (tree, some e)) (added : Script.Entry) :
    Confined (s.MayWrite v root r) (v.Along root) (s.filed v root r tree)
      (s.register e.aggregator (s.filed v root r tree) root added).2 := by
  have hfiled : Filed v (root.join (s.layout.directory v root r.archetype)) tree.files _
      (s.filed v root r tree) := placeFiles_filed hv _ tree.files
  have hadded := hfiled.added
  have hdown := h.aggregatorPath (isNamed_of_prepare hprepare) (s.filed v root r tree) root
  have hleads := (Path.LeadsDown.refl root).join hdown
  refine (register_confined hadded.plain e.aggregator root added).mono ?_ ?_
  · rintro loc ⟨rfl, hfile⟩
    rw [hadded.place_eq, place_of_leadsDown hleads, List.nil_append]
    -- with no names in its path the registry would be the root, and that cannot be written
    refine .registry hprepare fun hnil => ?_
    have hempty : s.aggregatorPath e.aggregator (s.filed v root r tree) root = Path.empty :=
      Path.eq_empty_of_components (List.map_eq_nil_iff.mp hnil)
    rw [hempty] at hfile
    exact Path.not_namesFile_join_empty root hfile
  · intro loc habove
    exact along_of_leadsDown hleads (hadded.above_iff.mp habove)

/-- What a request may write is below the root of the project. -/
theorem MayWrite.below {loc : Location} (h : s.MayWrite v root r loc) :
    v.place root <+: loc ∧ v.place root ≠ loc := by
  have hbelow : ∀ names : List String, names ≠ [] →
      v.place root <+: v.place root ++ names ∧ v.place root ≠ v.place root ++ names := fun names hne =>
    ⟨List.prefix_append _ _, fun heq => hne (List.self_eq_append_right.mp heq)⟩
  cases h with
  | registry _ hnames => exact hbelow _ hnames
  | own hown =>
    refine hbelow _ fun hnil => ?_
    cases hown <;> simp at hnil

/-- Whatever a request asks for, it writes only at the path of its registry and at the places of files of
its artifact, all of them below the root of the project, and it makes directories only above the root,
there and below. The name of a project is that of an entry of the working directory. -/
theorem generate_confined (s : Settings) (h : s.IsDownward) (hv : v.IsPlain) (root : Path)
    (r : Request) :
    Confined (s.MayWrite v root r) (v.Along root) v (s.generate v root r).2 ∧
      (∀ loc, s.MayWrite v root r loc → v.place root <+: loc ∧ v.place root ≠ loc) ∧
      ∀ raw name, Answer.projectName raw = .ok name → ∀ (w : Volume) (workdir : Path),
        (workdir.join (.ofText name)).components = workdir.components ++ [.name name] ∧
          w.place (workdir.join (.ofText name)) = w.place workdir ++ [name] := by
  refine ⟨?_, fun loc => MayWrite.below, fun raw name hname w workdir => ?_⟩
  · cases hprepare : s.prepare v root r with
    | error e =>
      rw [generate_of_prepare hprepare]
      exact .refl v
    | ok prepared =>
      obtain ⟨tree, entry⟩ := prepared
      have hfiled := filed_confined h hv hprepare
      obtain ⟨o, -, -, ⟨-, hsame⟩ | ⟨e, patch, rfl, -, hregister⟩⟩ := exists_generate_eq hprepare
      · rwa [hsame]
      · have hregistered := registered_confined h hv hprepare
          (e.entry.rootedAt (s.layout.directory v root r.archetype))
        rw [hregister] at hregistered
        exact hfiled.trans hregistered
  · have hentry := Answer.isEntryName_of_projectName hname
    obtain ⟨hdown, hnames⟩ := Path.isDownward_of_entryNames name [] (by simpa using hentry)
    rw [Path.ofText_of_notMem hentry.slash, Path.components_join (q := ⟨name, []⟩) workdir hentry.segment,
      Path.components_of_segment hentry.segment,
      place_of_leadsDown ((Path.LeadsDown.refl workdir).join hdown), hnames]
    exact ⟨rfl, rfl⟩

end Settings

/-- A screen is asked for in a project whose name was typed with blanks around it. -/
theorem generate_confined_shop :
    Settings.IsDownward {} ∧ Volume.IsPlain ⟨⟨[]⟩, []⟩ ∧ Answer.projectName " shop " = .ok "shop" ∧
      Confined (Settings.MayWrite {} ⟨⟨[]⟩, []⟩ ⟨".", ["shop"]⟩ (Request.screen "Home"))
        (Volume.Along ⟨⟨[]⟩, []⟩ ⟨".", ["shop"]⟩) ⟨⟨[]⟩, []⟩
        (Settings.generate {} ⟨⟨[]⟩, []⟩ ⟨".", ["shop"]⟩ (Request.screen "Home")).2 ∧
      Volume.place ⟨⟨[]⟩, []⟩ (Path.join ⟨".", []⟩ (.ofText "shop")) = ["shop"] := by
  have hdown : Settings.IsDownward {} := Settings.IsOrdinary.isDownward (by decide)
  have hname : Answer.projectName " shop " = .ok "shop" := by decide +kernel
  obtain ⟨hconfined, -, hproject⟩ :=
    Settings.generate_confined {} hdown isPlain_here ⟨".", ["shop"]⟩ (Request.screen "Home")
  exact ⟨hdown, isPlain_here, hname, hconfined, (hproject _ _ hname _ _).2⟩

end AppScaffold
