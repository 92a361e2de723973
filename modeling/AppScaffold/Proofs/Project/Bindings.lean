import AppScaffold.Proofs.Disk.Reporting
import AppScaffold.Proofs.Disk.Rewriting
import AppScaffold.Proofs.Project.StateDirectory
import AppScaffold.Proofs.Script.Bindings

/-!
# Names that are bound twice

The files of an artifact bind the name of the artifact beside names of their own. Nothing keeps the two
apart: a screen that is called like an element that it shows has the name bound twice, and so has a list
with a screen that is called like the list.
-/

namespace AppScaffold

open Disk Volume

namespace Template

variable {e : Extensions} {p : Parameters} {a : Archetype} {name : String} {tree : FileTree}

/-- The file in which an artifact is declared. -/
def mainFile (a : Archetype) (name : String) : String :=
  if a = .reducer then name ++ "-reducer.js" else name ++ ".jsx"

/-- A name that is bound in the file in any case is also what the name of the artifact is made into. -/
def Clashes (p : Parameters) (name : String) : Archetype → Prop
  | .screen | .loginScreen =>
    name ∈ ["React", "View", "Text", "TouchableOpacity", "useNavigation", "styles"]
  | .component => ∃ raw v, p.text "variant" = some raw ∧ Variant.ofText? raw = some v ∧
    name ∈ "React" :: v.imported ++ ["styles"]
  | .reducer => Name.camel name ∈ ["create", "default"]
  | _ => False

/-- The name that a registry binds for the artifact is that of the registry. -/
def ClashesInList (name : String) : Archetype → Prop
  | .screen => name = "stackScreens"
  | .loginScreen => name = "loginScreens"
  | .reducer => Name.camel name = "root"
  | _ => False

/-- Texts that end differently are different. -/
theorem append_ne_append {x y s t : String} {c d : Char} (hs : s.toList.getLast? = some c)
    (ht : t.toList.getLast? = some d) (hne : c ≠ d) : x ++ s ≠ y ++ t := by
  intro heq
  have hlast := congrArg (fun u : String => u.toList.getLast?) heq
  simp only [String.toList_append, List.getLast?_append, hs, ht, Option.some_or, Option.some.injEq]
    at hlast
  exact hne hlast

/-- A name is bound twice behind others exactly if it is one of them. -/
theorem nodup_concat_iff {names : List String} (h : names.Nodup) (name : String) :
    (names ++ [name]).Nodup ↔ name ∉ names := by
  rw [← List.concat_eq_append, List.nodup_concat, and_iff_left h]

/-- The names that a slice binds are different unless it is called like a part of them. -/
theorem nodup_reducer (slice : String) :
    ["createSlice", slice ++ "Slice", "defaultReducer", slice ++ "Reducer"].Nodup ↔
      slice ∉ ["create", "default"] := by
  have hcreate : "createSlice" = slice ++ "Slice" ↔ slice = "create" := by
    rw [show "createSlice" = "create" ++ "Slice" by decide, String.append_left_inj, eq_comm]
  have hdefault : "defaultReducer" = slice ++ "Reducer" ↔ slice = "default" := by
    rw [show "defaultReducer" = "default" ++ "Reducer" by decide, String.append_left_inj, eq_comm]
  have hends : ∀ x y : String, x ++ "Slice" ≠ y ++ "Reducer" := fun x y =>
    append_ne_append (c := 'e') (d := 'r') (by decide) (by decide) (by decide)
  have hfirst : "createSlice" ≠ slice ++ "Reducer" := hends "create" slice
  have hsecond : slice ++ "Slice" ≠ "defaultReducer" := hends slice "default"
  simp [hcreate, hdefault, hends, hfirst, hsecond, not_or]

/-- The names that the root reducer with one slice binds are different unless the slice is called like
it. -/
theorem nodup_rootReducer (slice : String) :
    ["combineReducers", slice ++ "Reducer", "rootReducer"].Nodup ↔ slice ≠ "root" := by
  have hroot : slice ++ "Reducer" = "rootReducer" ↔ slice = "root" := by
    rw [show "rootReducer" = "root" ++ "Reducer" by decide, String.append_left_inj]
  have hcombine : "combineReducers" ≠ slice ++ "Reducer" :=
    append_ne_append (x := "combine") (s := "Reducers") (c := 's') (d := 'r') (by decide) (by decide)
      (by decide)
  simp [hroot, hcombine]

/-- Every screen, component and slice has its main file, which binds a name twice exactly if there is a
clash. -/
theorem exists_mainFile (ha : a ∈ [.screen, .loginScreen, .component, .reducer])
    (h : instantiate {} a p = .ok tree) : ∃ name t d, p.text "name" = some name ∧
      Name.isIdentifier name = true ∧ ⟨⟨name, [mainFile a name]⟩, t, d⟩ ∈ tree.files ∧
        ((Script.bindings t).Nodup ↔ ¬Clashes p name a) := by
  by_cases hreducer : a = .reducer
  · subst hreducer
    obtain ⟨name, -, hgiven, hident, -⟩ := exists_of_instantiate_reducer h
    obtain rfl := Except.ok.inj (h.symm.trans (instantiate_reducer hgiven hident (by decide)))
    have hfile : ∀ name, mainFile .reducer name = (Extensions.mk "jsx" "js").scriptFile (name ++ "-reducer") := by
      intro name
      rw [mainFile, if_pos rfl, Extensions.scriptFile, String.append_assoc, String.append_assoc]
      rfl
    simp only [hfile]
    refine ⟨name, _, _, hgiven, hident, List.mem_singleton_self _, ?_⟩
    rw [Script.bindings_reducer fun c hc => isIdentifierTail_of_mem_camel hident hc, nodup_reducer]
    rfl
  · have ha' : a = .screen ∨ a = .loginScreen ∨ a = .component := by simpa [hreducer] using ha
    obtain ⟨name, kind, component, styles, hgiven, hident, hasks, rfl⟩ :=
      exists_of_instantiate_component ha' h
    refine ⟨name, Skeleton.text component, name ++ " " ++ kind, hgiven, hident, ?_, ?_⟩
    · rw [files_componentTree hident, mainFile, if_neg hreducer]
      exact List.mem_cons_self
    cases hasks with
    | screen | loginScreen =>
      rw [Script.bindings_screen hident]
      exact nodup_concat_iff
        (show ["React", "View", "Text", "TouchableOpacity", "useNavigation", "styles"].Nodup by decide) name
    | component hraw hv helements =>
      rename_i raw v
      have hfixed : ("React" :: v.imported ++ ["styles"]).Nodup := by
        cases v with
        | _ => decide
      rw [Script.bindings_component hident v helements, List.append_cons, nodup_concat_iff hfixed,
        not_iff_not]
      refine ⟨fun hmem => ⟨raw, v, hraw, hv, hmem⟩, ?_⟩
      rintro ⟨raw', v', hraw', hv', hmem⟩
      obtain rfl := Option.some.inj (hraw.symm.trans hraw')
      obtain rfl := Option.some.inj (hv.symm.trans hv')
      exact hmem

end Template

namespace Request

variable {r : Request} {name : String} {e : Template.RegistryEntry}

/-- Components have no registry. A registry with the one entry of another request binds a name twice
exactly if there is a clash. -/
theorem registration_cases (ha : r.archetype ∈ [.screen, .loginScreen, .component, .reducer])
    (hgiven : r.params.text "name" = some name) (hident : Name.isIdentifier name = true) :
    r.archetype = .component ∧ r.registration = none ∨
      ∃ e, r.registration = some e ∧ e.aggregator.frame ≠ none ∧
        ((Script.bindings (e.aggregator.content [e.entry])).Nodup ↔
          ¬Template.ClashesInList name r.archetype) := by
  have hpair : ∀ list, [name, list].Nodup ↔ ¬name = list := fun list => by simp
  have hone : ∀ n ∈ [name], Name.isIdentifier n = true := List.forall_mem_singleton.mpr hident
  have hscreens : ∀ {a : Aggregator} {list : String},
      a = .screenRegistry ∧ list = "stackScreens" ∨ a = .loginRegistry ∧ list = "loginScreens" →
        a.content [screenLine name] = Skeleton.text (Skeleton.screenList list [name]) := fun h =>
    Aggregator.content_screens h hone
  obtain ⟨a, p⟩ := r
  simp only [List.mem_cons, List.not_mem_nil, or_false] at ha
  rcases ha with rfl | rfl | rfl | rfl
  · refine .inr ⟨_, registration_screen (r := ⟨.screen, p⟩) (.inl rfl) hgiven hident,
      by simp [Aggregator.frame], ?_⟩
    rw [if_pos rfl, hscreens (.inl ⟨rfl, rfl⟩), Script.bindings_screenList hident List.mem_cons_self]
    exact hpair _
  · refine .inr ⟨_, registration_screen (r := ⟨.loginScreen, p⟩) (.inr rfl) hgiven hident,
      by simp [Aggregator.frame], ?_⟩
    rw [if_neg (show Archetype.loginScreen ≠ .screen by decide), hscreens (.inr ⟨rfl, rfl⟩),
      Script.bindings_screenList hident (List.mem_cons_of_mem _ List.mem_cons_self)]
    exact hpair _
  · exact .inl ⟨rfl, registration_eq_none (r := ⟨.component, p⟩) (by simp)⟩
  · have hreg : registration ⟨.reducer, p⟩ = some ⟨.reducerRegistry,
        (Template.reducerEntry name).entry.rootedAt ⟨"src", [Archetype.reducer.home]⟩⟩ := by
      rw [registration, Template.registryEntry_reducer hgiven hident]
      rfl
    refine .inr ⟨_, hreg, by simp [Aggregator.frame], ?_⟩
    obtain ⟨-, i, hi, hwhole⟩ := (Template.takes_reducerEntry hident).literal (by simp [Aggregator.frame])
    obtain rfl := Option.some.inj hi
    have hcamel := fun c hc => isIdentifierTail_of_mem_camel (c := c) hident hc
    have hspecifier : '\n' ∉ (Path.moduleSpecifier ⟨"src", Aggregator.reducerRegistry.location⟩
        ((⟨"src", [Archetype.reducer.home]⟩ : Path).join
          (Template.within name (name ++ "-reducer")))).toList := fun hmem =>
      hwhole.single (by simp [Script.ImportLine.render, Skeleton.importNamed, Skeleton.importDefault, hmem])
    have hbound := Script.bindings_rootReducer hcamel hspecifier
    exact (iff_of_eq (congrArg List.Nodup hbound)).trans (Template.nodup_rootReducer _)

end Request

/-- The name of the directory of an archetype is as long as that which it has in the library. -/
theorem Layout.exists_home (v : Volume) (root : Path) (a : Archetype) : ∃ home, IsName home ∧
    home.utf8ByteSize = a.home.utf8ByteSize ∧ Layout.directory {} v root a = ⟨"src", [home]⟩ := by
  have hnames : ∀ lower, IsName (stateSpelling lower) ∧
      (stateSpelling lower).utf8ByteSize = "Redux".utf8ByteSize := by decide
  obtain ⟨hname, hsize⟩ := hnames (v.hasLowerState root)
  cases a with
  | reducer | store => exact ⟨_, hname, hsize, Layout.usedReduxDir_default v root⟩
  | _ => exact ⟨_, by decide, rfl, rfl⟩

/-- The paths of requests whose registries are lists or tables are as long as those of the library. -/
theorem Request.keepsWidth {r : Request}
    (hframe : ∀ e, r.registration = some e → e.aggregator.frame ≠ none) : r.KeepsWidth where
  directory v root := Layout.exists_home v root r.archetype
  registry e he := by
    have hstate : ∀ lower, (∀ s ∈ [stateSpelling lower, "root-reducer.js"], IsName s) ∧
        width [stateSpelling lower, "root-reducer.js"] = width Aggregator.reducerRegistry.location ∧
        (⟨"src", [stateSpelling lower]⟩ : Path).join (.ofText "root-reducer.js") =
          ⟨"src", [stateSpelling lower, "root-reducer.js"]⟩ := by decide
    have hne := hframe e he
    cases ha : e.aggregator with
    | screenRegistry | loginRegistry =>
      exact ⟨by decide, fun v root => ⟨_, by decide, by decide, rfl, rfl⟩⟩
    | reducerRegistry =>
      refine ⟨by decide, fun v root => ?_⟩
      obtain ⟨hnames, hwidth, hpath⟩ := hstate (v.hasLowerState root)
      refine ⟨_, hnames, by simp, hwidth, ?_⟩
      rw [Settings.aggregatorPath, Layout.usedReduxDir_default]
      exact hpath
    | apiFunctions | screenApi _ =>
      rw [ha] at hne
      exact absurd rfl hne

/-- What requests have made in a new project can be read. -/
theorem Begun.readText_of_contents {v w x : Volume} {root : Path} {src : Location} {rs : List Request}
    (hf : Begun v root w src) (h : Shows w src (contents rs) x) {loc : Location} {t : String}
    (hreach : Follows (sources root) loc) (ht : contents rs loc = some t) :
    x.readText (root.join ⟨"src", loc⟩) = .ok t := by
  have hsite : IsSite loc := isSite_of_contents_ne_none (by rw [ht]; simp)
  have hadmits : Admits (contents rs) loc := IsSite.admits (fun _ => isSite_of_contents_ne_none) hsite
  obtain ⟨dirs, file, rfl, -⟩ := hsite.split
  rw [Path.join_src]
  exact (h.readText_eq hf.toVacant hreach hadmits).2 t ht

namespace Settings

variable {s : Settings} {v u w : Volume} {root : Path} {dir : Location} {r : Request} {o : Outcome}
  {a : Aggregator}

/-- A registry that was not patched leaves what was there. -/
theorem register_grown {entry : Script.Entry} {patch : PatchOutcome}
    (hregister : s.register a v root entry = (patch, w))
    (h : ∀ b path seeded, patch ≠ .patched b path seeded) : Grown v w := by
  cases register_eq_iff.mp hregister with
  | unpatched => exact .refl v
  | written => exact absurd rfl (h _ _ _)
  | @unwritten patched _ _ hpatch hwrite =>
    have hgrown := mkdirParent_grown v patched.path
    cases PatchedFile.write_eq_iff.mp hwrite with
    | unpaved hmade =>
      rw [hmade] at hgrown
      exact hgrown
    | @unwritten _ x _ hmade hfails =>
      rw [hmade] at hgrown
      rcases x.writeFile_uniform patched.path with ⟨e, hsame⟩ | hdone
      · rw [hsame] at hfails
        cases hfails
        exact hgrown
      · obtain ⟨y, hy⟩ := hdone patched.content
        cases hy.symm.trans hfails

/-- The path of the file in which an artifact is declared. -/
def mainPath (v : Volume) (root : Path) (a : Archetype) (name : String) : Path :=
  (root.join (Layout.directory {} v root a)).join ⟨name, [Template.mainFile a name]⟩

/-- A file that was made can be read when the work on the files is over, even if it was stopped. -/
theorem readText_of_created {tree : FileTree} {report : Report} {problem : Option Problem}
    (hv : v.IsNested) (htree : Template.instantiate {} r.archetype r.params = .ok tree)
    (hmade : v.materialize (root.join (Layout.directory {} v root r.archetype)) tree =
      ((report, problem), w)) {f : GeneratedFile} (hf : f ∈ tree.files)
    (hcreated : (root.join (Layout.directory {} v root r.archetype)).join f.path ∈ report.created) :
    w.readText ((root.join (Layout.directory {} v root r.archetype)).join f.path) = .ok f.content := by
  obtain ⟨home, hhome, -, hdir⟩ := Layout.exists_home v root r.archetype
  obtain ⟨handled, haccounts⟩ := materialize_accounts hv
    (root.join (Layout.directory {} v root r.archetype)) tree
  rw [hmade] at haccounts
  have hreport := haccounts.report
  simp only at hreport
  rw [hreport] at hcreated
  obtain ⟨⟨g, placement⟩, hhandled, hpath⟩ := List.mem_map.mp hcreated
  obtain ⟨hhandled, hplacement⟩ := List.mem_filter.mp hhandled
  obtain rfl : placement = .created := of_decide_eq_true hplacement
  have hg : g ∈ tree.files := haccounts.first.subset (List.mem_map_of_mem hhandled)
  have hmem : ∀ f ∈ tree.files, (f.location r.archetype, f.content) ∈ r.files := fun f hf => by
    rw [Request.files_eq htree]
    exact List.mem_map_of_mem hf
  have hfirst : ∀ f ∈ tree.files, f.path.first ≠ "" := fun f hf =>
    (isSegment_iff.mp (Request.isSegment_of_mem_files (hmem f hf) _
      (List.mem_cons_of_mem _ List.mem_cons_self))).1
  -- two files at one path are one, since their places are told by the path
  have hplace : g.location r.archetype = f.location r.archetype := by
    rw [hdir, Path.join_join_src root hhome (hfirst g hg), Path.join_join_src root hhome (hfirst f hf),
      Path.join_src, Path.join_src] at hpath
    have hrest := List.append_cancel_left (congrArg Path.rest hpath)
    simpa [GeneratedFile.location] using hrest
  have hlookup := lookup_eq_some_of_mem r.nodup_files (hmem g hg)
  rw [hplace, lookup_eq_some_of_mem r.nodup_files (hmem f hf)] at hlookup
  have hread := haccounts.contents g hhandled
  rw [hpath] at hread
  rw [hread, Option.some.inj hlookup]

/-- A request that has succeeded in an empty project has made all its files and its registry, which can be
read. -/
theorem outcome_of_isSuccess (hempty : Made v u root dir)
    (hframe : ∀ e, r.registration = some e → e.aggregator.frame ≠ none) {loc : Location} {t : String}
    (hfile : (loc, t) ∈ r.files) (h : generate {} v root r = (.ok o, w)) (ho : o.isSuccess = true) :
    o = outcomeAfter root [] r ∧
      Layout.directory {} v root r.archetype = ⟨"src", [r.archetype.home]⟩ ∧
      w.readText (root.join ⟨"src", loc⟩) = .ok t ∧
      ∀ e, r.registration = some e →
        w.readText (root.join ⟨"src", e.aggregator.location⟩) = .ok (e.aggregator.content [e.entry]) := by
  have hreaches := (Request.keepsWidth hframe).reaches h ho
  have hfollows := hreaches.files _ (List.mem_map_of_mem hfile)
  have hwidth : width ["redux"] ≤ width loc := by
    have hhomes : ∀ home ∈ ["Screens", "components", "Redux"], width ["redux"] ≤ width [home] := by decide
    have hfixed : ∀ home ∈ ["Redux", "Api", "Navigation"], ∀ file ∈ Template.fixedNames,
        width ["redux"] ≤ width [home, file] := by decide
    obtain ⟨hhome, name, file, -, -, -, rfl⟩ | ⟨hhome, file, hfixed', rfl⟩ :=
      Request.location_cases hfile
    · exact (hhomes _ hhome).trans (by simp [width])
    · exact hfixed _ hhome _ hfixed'
  obtain ⟨x, -, hbegun⟩ := exists_begun hempty hfollows hwidth
  have hone : generateAll {} v root [r] = ([(r.archetype, .ok o)], w) := by
    rw [generateAll, h]
    rfl
  have hrs : ∀ q ∈ [r], q.Reaches root := List.forall_mem_singleton.mpr hreaches
  have hok : ∀ result ∈ (generateAll {} v root [r]).1, ∃ o, result.2 = .ok o := by
    rw [hone]
    exact List.forall_mem_singleton.mpr ⟨o, rfl⟩
  have hall := hbegun.generateAll_shows hrs (List.cons_ne_nil _ _) hok
  rw [hone] at hall
  obtain ⟨hresults, hshows⟩ := hall
  have hfirst : contents [r] loc = some t := by
    rw [contents_of_mem_files [r] hfile, firstFile, List.flatMap_singleton]
    exact lookup_eq_some_of_mem r.nodup_files hfile
  obtain ⟨hfree, -⟩ := hbegun.toMade.find?_eq hbegun.room (List.cons_ne_nil _ _)
  refine ⟨?_, directory_eq hfree _, hbegun.readText_of_contents hshows hfollows hfirst,
    fun e he => hbegun.readText_of_contents hshows (hreaches.registry e he) ?_⟩
  · exact Except.ok.inj (Prod.mk.inj (Option.some.inj (hresults 0 r rfl))).2
  · have hentries : e.aggregator.entriesIn [r] = [e.entry] := by
      rw [Aggregator.entriesIn, List.filterMap_cons, he]
      simp
    rw [contents_location, hentries, if_neg (List.cons_ne_nil _ _)]

/-- A request that has not succeeded has patched no registry, and what was made of its files can be
read. -/
theorem readText_of_not_isSuccess (hv : v.IsNested) {tree : FileTree}
    (htree : Template.instantiate {} r.archetype r.params = .ok tree)
    (h : generate {} v root r = (.ok o, w)) (ho : o.isSuccess ≠ true) :
    (∀ a p seeded, o.patch ≠ some (.patched a p seeded)) ∧
      ∀ f ∈ tree.files, (root.join (Layout.directory {} v root r.archetype)).join f.path ∈
        o.report.created →
          w.readText ((root.join (Layout.directory {} v root r.archetype)).join f.path) =
            .ok f.content := by
  have hsame : ∀ {tree' : FileTree} {entry : Option Template.RegistryEntry},
      prepare {} v root r = .ok (tree', entry) → tree' = tree := fun hprepare =>
    Except.ok.inj ((of_prepare hprepare).1.symm.trans htree)
  cases generate_eq_iff.mp h with
  | stopped hprepare hmade =>
    obtain rfl := hsame hprepare
    exact ⟨fun _ _ _ => nofun, fun f hf => readText_of_created hv htree hmade hf⟩
  | filed => exact absurd rfl ho
  | @registered _ _ report patch _ _ hprepare hmade hregister =>
    obtain rfl := hsame hprepare
    have hfailed : ∀ b path seeded, patch ≠ .patched b path seeded := by
      rintro b path seeded rfl
      exact ho rfl
    have hgrown := register_grown hregister hfailed
    exact ⟨fun a p seeded hpatched => hfailed a p seeded (Option.some.inj hpatched),
      fun f hf hcreated => hgrown.readText (readText_of_created hv htree hmade hf hcreated)⟩

/-- In an empty project, and where one can be made, a screen, a component or a slice binds a name twice
in its main file, as far as that was made, exactly if there is a clash. Its registry is then made from the
seed, and binds a name twice exactly if there is a clash there. A request that succeeds makes the main
file, and the registry unless it is for a component. -/
theorem generate_bindings (hv : v.IsNested) (hempty : Made v u root dir)
    (ha : r.archetype ∈ [.screen, .loginScreen, .component, .reducer])
    (h : generate {} v root r = (.ok o, w)) :
    ∃ name, r.params.text "name" = some name ∧ Name.isIdentifier name = true ∧
      (mainPath v root r.archetype name ∈ o.report.created →
        ∃ t, w.readText (mainPath v root r.archetype name) = .ok t ∧
          ((Script.bindings t).Nodup ↔ ¬Template.Clashes r.params name r.archetype)) ∧
      (∀ a p seeded, o.patch = some (.patched a p seeded) → seeded = true ∧
        ∃ t, w.readText p = .ok t ∧
          ((Script.bindings t).Nodup ↔ ¬Template.ClashesInList name r.archetype)) ∧
      (o.isSuccess = true → mainPath v root r.archetype name ∈ o.report.created ∧
        (r.archetype = .component ∨ ∃ a p, o.patch = some (.patched a p true))) := by
  obtain ⟨tree, entry, hprepare⟩ := (exists_outcome_iff {} v root r).mp ⟨o, congrArg Prod.fst h⟩
  obtain ⟨htree, hregistration, -, hentry, -⟩ := of_prepare hprepare
  obtain ⟨name, t, d, hgiven, hident, hmem, hmain⟩ := Template.exists_mainFile ha htree
  refine ⟨name, hgiven, hident, ?_⟩
  by_cases ho : o.isSuccess = true
  · have hfile : ([r.archetype.home, name, Template.mainFile r.archetype name], t) ∈ r.files := by
      rw [Request.files_eq htree]
      exact List.mem_map_of_mem hmem
    have hlisted := Request.registration_cases ha hgiven hident
    have hframe : ∀ e, r.registration = some e → e.aggregator.frame ≠ none ∧
        ((Script.bindings (e.aggregator.content [e.entry])).Nodup ↔
          ¬Template.ClashesInList name r.archetype) := by
      intro e he
      rcases hlisted with ⟨-, hnone⟩ | ⟨e', he', hlist⟩
      · cases hnone.symm.trans he
      · rwa [Option.some.inj (he.symm.trans he')]
    obtain ⟨rfl, hdirectory, hread, hregistry⟩ :=
      outcome_of_isSuccess hempty (fun e he => (hframe e he).1) hfile h ho
    have hhome : IsName r.archetype.home := by
      cases r.archetype with
      | _ => decide
    have hpath : mainPath v root r.archetype name =
        root.join ⟨"src", [r.archetype.home, name, Template.mainFile r.archetype name]⟩ := by
      rw [mainPath, hdirectory, Path.join_join_src root hhome (Template.notMem_of_isIdentifier hident).2]
    refine ⟨fun _ => ⟨t, hpath ▸ hread, hmain⟩, fun a p seeded hpatched => ?_, fun _ => ⟨?_, ?_⟩⟩
    · obtain ⟨e, he, hpatched⟩ := Option.map_eq_some_iff.mp hpatched
      obtain ⟨-, rfl, rfl⟩ := PatchOutcome.patched.inj hpatched
      exact ⟨rfl, _, hregistry e he, (hframe e he).2⟩
    · have hkept : [r.archetype.home, name, Template.mainFile r.archetype name] ∈
          (r.files.map Prod.fst).filter fun loc => (firstFile [] loc).isNone :=
        List.mem_filter.mpr ⟨List.mem_map.mpr ⟨_, hfile, rfl⟩, rfl⟩
      rw [hpath]
      exact List.mem_map.mpr ⟨_, hkept, rfl⟩
    · refine hlisted.imp And.left ?_
      rintro ⟨e, he, -⟩
      rw [outcomeAfter, he]
      exact ⟨_, _, rfl⟩
  · obtain ⟨hfailed, hread⟩ := readText_of_not_isSuccess hv htree h ho
    have hmade := hread _ hmem
    exact ⟨fun hcreated => ⟨t, hmade hcreated, hmain⟩,
      fun a p seeded hpatched => absurd hpatched (hfailed a p seeded), fun hyes => absurd hyes ho⟩

/-- A screen that is called like an element that it shows binds the name twice. -/
theorem generate_bindings_view : ∃ o w,
    IsNested ⟨⟨[]⟩, []⟩ ∧ Made ⟨⟨[]⟩, []⟩ ⟨⟨[]⟩, []⟩ ⟨".", []⟩ [] ∧
      generate {} ⟨⟨[]⟩, []⟩ ⟨".", []⟩ (Request.screen "View") = (.ok o, w) ∧ o.isSuccess = true ∧
        ∃ t, w.readText (mainPath ⟨⟨[]⟩, []⟩ ⟨".", []⟩ .screen "View") = .ok t ∧
          ¬(Script.bindings t).Nodup := by
  have hnested : IsNested ⟨⟨[]⟩, []⟩ := ⟨nested_of_entries (by decide), rfl⟩
  have hgiven : (Request.screen "View").params.text "name" = some "View" := by decide
  obtain ⟨x, hf⟩ := exists_fresh made_here (by decide)
  have hshort : ∀ r ∈ [Request.screen "View"], r.IsShort := by
    rw [List.forall_mem_singleton]
    intro parameter hparameter name hname
    simp only [List.mem_cons, List.not_mem_nil, or_false] at hparameter
    rcases hparameter with rfl | rfl
    · obtain rfl := Option.some.inj (hgiven.symm.trans hname)
      decide
    · cases hname
  have hprepare : ∀ r ∈ [Request.screen "View"], ∀ v, ∃ tree entry,
      prepare {} v ⟨".", []⟩ r = .ok (tree, entry) :=
    List.forall_mem_singleton.mpr fun v => ⟨_, _, rfl⟩
  have hok := generateAll_accepts {} hprepare ⟨⟨[]⟩, []⟩
  obtain ⟨hresults, -⟩ := generateAll_fresh hf hshort hok
  obtain ⟨hsuccess, hresult⟩ := hresults 0 _ rfl
  obtain ⟨o, w, hgenerate, ho⟩ : ∃ o w,
      generate {} ⟨⟨[]⟩, []⟩ ⟨".", []⟩ (Request.screen "View") = (.ok o, w) ∧ o.isSuccess = true :=
    ⟨_, _, Prod.ext (Prod.mk.inj (Option.some.inj hresult)).2 rfl, hsuccess⟩
  refine ⟨o, w, hnested, made_here, hgenerate, ho, ?_⟩
  obtain ⟨name, hname, -, hmain, -, hdone⟩ :=
    generate_bindings hnested made_here (by decide) hgenerate
  obtain rfl := Option.some.inj (hgiven.symm.trans hname)
  obtain ⟨t, ht, htwice⟩ := hmain (hdone ho).1
  refine ⟨t, ht, fun hnodup => htwice.mp hnodup ?_⟩
  exact List.mem_cons_of_mem _ List.mem_cons_self

end Settings

end AppScaffold
