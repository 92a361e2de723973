import AppScaffold.Proofs.Dialogue.Collected
import AppScaffold.Proofs.Project.ComponentFiles
import AppScaffold.Proofs.Project.Contents
import AppScaffold.Proofs.Project.Modules

/-!
# The files of a plan

The requests of a plan whose parts have been checked are accepted on every disk. With the settings
that come with the library no two of them make the same file. The lists of screens hold an import
and an entry for each screen, in order.
-/

namespace AppScaffold

namespace Template

variable {name : String}

/-- A component, its style sheet and its index are three files. -/
theorem files_componentTree (h : Name.isIdentifier name = true) (kind : String)
    (component styles : List String) :
    (componentTree {} name kind component styles).files =
      [⟨⟨name, [name ++ ".jsx"]⟩, Skeleton.text component, name ++ " " ++ kind⟩,
        ⟨⟨name, [name ++ ".style.js"]⟩, Skeleton.text styles, name ++ " styles"⟩,
        ⟨⟨name, ["index.js"]⟩, Skeleton.text (Skeleton.index name), name ++ " index"⟩] := by
  have hstyle : (Extensions.mk "jsx" "js").component ≠ "style." ++ (Extensions.mk "jsx" "js").script :=
    by decide
  have hone : ¬(name = "index" ∧ (Extensions.mk "jsx" "js").component =
      (Extensions.mk "jsx" "js").script) := fun h => absurd h.2 (by decide)
  rw [files_componentTree_eq h (by decide) (by decide), if_neg hstyle, if_neg hone, text_index]
  simp [componentFile, styleFile, indexFile, String.append_assoc]

end Template

/-- The lines of a list of screens that is not empty. -/
def Skeleton.screenList (list : String) (screens : List String) : List String :=
  screens.map (fun name => importDefault name ("../../Screens/" ++ name)) ++
    "" :: ("export const " ++ list ++ " = [") :: screens.flatMap screenEntry ++ ["];"]

/-- Joined lines end like the lines. -/
theorem Skeleton.text_join {lines : List String} (hne : lines ≠ []) :
    Text.join "\n" lines ++ "\n" = text lines := by
  induction lines with
  | nil => exact absurd rfl hne
  | cons line lines ih =>
    cases lines with
    | nil => rw [Text.join, text, text, String.append_empty]
    | cons next lines =>
      rw [Text.join, text, ← ih (List.cons_ne_nil _ _), String.append_assoc, String.append_assoc]
      exact List.cons_ne_nil _ _

/-- A screen is imported into a list from its directory. -/
theorem Path.moduleSpecifier_screen {name file : String} (h : Name.isIdentifier name = true)
    (hfile : file ∈ ["StackScreens.jsx", "LoginScreens.jsx"]) :
    moduleSpecifier ⟨"src", ["Navigation", "screens", file]⟩ ⟨"src", ["Screens", name]⟩ =
      "../../Screens/" ++ name := by
  have hdir : ((parent ⟨"src", ["Navigation", "screens", file]⟩).map steps).getD [] =
      [.name "src", .name "Navigation", .name "screens"] := by
    simp only [List.mem_cons, List.not_mem_nil, or_false] at hfile
    rcases hfile with rfl | rfl
    · rfl
    · rfl
  have hsegments : ∀ s ∈ ["Screens", name], IsSegment s := by
    simpa using ⟨show IsSegment "Screens" by decide, (isSegment_of_isIdentifier h).1⟩
  have htarget : steps ⟨"src", ["Screens", name]⟩ = [.name "src", .name "Screens", .name name] := by
    rw [steps, components_of_isSegment (p := ⟨"src", ["Screens", name]⟩) (show IsSegment "src" by decide),
      filterMap_of_isSegment hsegments]
    simp
  have hcommon : ∀ cs, commonLength [.name "src", .name "Navigation", .name "screens"]
      (.name "src" :: .name "Screens" :: cs) = 1 := by
    intro cs
    rw [commonLength, if_pos rfl, commonLength, if_neg (by decide)]
  rw [moduleSpecifier, hdir, htarget, wayBetween, hcommon]
  have hjoin : Text.join "/" ["..", "..", "Screens", name] = "../../Screens/" ++ name := by
    rw [Text.join, Text.join, Text.join, Text.join]
    · rfl
    all_goals simp
  exact hjoin

namespace Request

variable {r : Request} {name url : String}

/-- The name of a screen is taken as it is given. -/
theorem text_name (h : Name.isIdentifier name = true) :
    (Parameters.ofList [("name", .text name)]).text "name" = some name := by
  refine Parameters.text_of_notMem rfl (Template.notMem_of_isIdentifier h).2 fun c hc => ?_
  have hplain := (isSegment_of_isIdentifier h).2 c hc
  unfold isReserved at hplain
  simp only [Bool.or_eq_false_iff] at hplain
  exact hplain.2

/-- A base address is taken as it was read. -/
theorem text_baseUrl {raw : String} (h : Answer.baseUrl raw Address.proposed = .ok url) :
    (Parameters.ofList [("base_url", .text url)]).text "base_url" = some url ∧
      url.toList.any Address.isQuoteOrBackslash = false := by
  unfold Answer.baseUrl at h
  dsimp only at h
  split_ifs at h with hempty hblank hquote
  · obtain rfl := Except.ok.inj h
    exact ⟨by decide, by decide⟩
  · obtain rfl := Except.ok.inj h
    refine ⟨Parameters.text_of_notMem rfl hempty fun c hc => ?_, by simpa using hquote⟩
    rw [List.any_eq_true, not_exists] at hblank
    simpa [hc] using hblank c

/-- The files of the navigation. -/
theorem files_navigation (login : Bool) :
    (navigation login {}).files =
      [(["Navigation", "AppNavigation.jsx"], Skeleton.text
          (Skeleton.navigator "AppNavigation" "stackScreens" "./screens/StackScreens")),
        (["Navigation", "MainNavigation.jsx"], Skeleton.text (Skeleton.mainNavigation login))] ++
      if login then [(["Navigation", "LoginNavigation.jsx"], Skeleton.text
        (Skeleton.navigator "LoginNavigation" "loginScreens" "./screens/LoginScreens"))]
      else [] := by
  cases login with
  | false => rfl
  | true => rfl

/-- The files of a screen. -/
theorem files_screen (ha : r.archetype = .screen ∨ r.archetype = .loginScreen)
    (hgiven : r.params.text "name" = some name) (h : Name.isIdentifier name = true) :
    r.files =
      [(["Screens", name, name ++ ".jsx"], Skeleton.text (Skeleton.screen name (Name.title name))),
        (["Screens", name, name ++ ".style.js"], Skeleton.text Skeleton.screenStyles),
        (["Screens", name, "index.js"], Skeleton.text (Skeleton.index name))] := by
  have hhome : r.archetype.home = "Screens" := by
    rcases ha with ha | ha
    · rw [ha]
      rfl
    · rw [ha]
      rfl
  rw [files_eq (Template.instantiate_screen ha hgiven h), Template.files_componentTree h]
  simp only [List.map_cons, List.map_nil, GeneratedFile.location, hhome]

/-- The file of the base address. -/
theorem files_apiConfig {raw : String} (h : Answer.baseUrl raw Address.proposed = .ok url) :
    (apiConfig url).files =
      [(["Api", "api.config.js"], Skeleton.text (Skeleton.baseAddress (Address.normal url)))] := by
  obtain ⟨hgiven, hurl⟩ := text_baseUrl h
  have htree := Template.instantiate_apiConfig (e := {}) hgiven hurl (by decide)
  rw [files_eq (r := apiConfig url) htree]
  rfl

/-- What a screen adds to its list. -/
def screenLine (name : String) : Script.Entry :=
  (Template.screenEntry .screenRegistry name).entry.rootedAt ⟨"src", ["Screens"]⟩

/-- A screen is added to the list of its stack. -/
theorem registration_screen (ha : r.archetype = .screen ∨ r.archetype = .loginScreen)
    (hgiven : r.params.text "name" = some name) (h : Name.isIdentifier name = true) :
    r.registration =
      some ⟨if r.archetype = .screen then .screenRegistry else .loginRegistry, screenLine name⟩ := by
  have hhome : r.archetype.home = "Screens" := by
    rcases ha with ha | ha
    · rw [ha]
      rfl
    · rw [ha]
      rfl
  rw [registration, Template.registryEntry_screen ha hgiven h]
  simp only [Option.map_some, hhome]
  rfl

/-- Not every artifact belongs in a registry. -/
theorem registration_eq_none (ha : r.archetype ∈ [.component, .store, .apiConfig, .navigation]) :
    r.registration = none := by
  rw [registration]
  split
  · next entry hentry =>
    rw [(Template.entryOf_of_registryEntry hentry).eq_none ha, Option.map_none]
  · rfl

/-- The requests are for different directories or for different screens. -/
def Apart (q r : Request) : Prop :=
  q.archetype.home = r.archetype.home →
    q.archetype.home = "Screens" ∧ q.params.text "name" ≠ r.params.text "name"

/-- Requests for different directories or different screens share no file. -/
theorem Apart.disjoint_files {q r : Request} (h : q.Apart r) :
    (q.files.map Prod.fst).Disjoint (r.files.map Prod.fst) := by
  intro loc hq hr
  obtain ⟨x, hx, rfl⟩ := List.mem_map.mp hq
  obtain ⟨y, hy, hsame⟩ := List.mem_map.mp hr
  rcases location_cases hx with ⟨-, name, file, hgiven, -, -, hloc⟩ | ⟨hhome, file, -, hloc⟩
  · rcases location_cases hy with ⟨-, name', file', hgiven', -, -, hloc'⟩ | ⟨-, file', -, hloc'⟩
    · rw [hloc, hloc'] at hsame
      simp only [List.cons.injEq] at hsame
      refine (h hsame.1.symm).2 ?_
      rw [hgiven, hgiven', hsame.2.1]
    · rw [hloc, hloc'] at hsame
      cases congrArg List.length hsame
  · rcases location_cases hy with ⟨-, name', file', -, -, -, hloc'⟩ | ⟨-, file', -, hloc'⟩
    · rw [hloc, hloc'] at hsame
      cases congrArg List.length hsame
    · rw [hloc, hloc'] at hsame
      rw [(h (List.cons.inj hsame).1.symm).1] at hhome
      exact absurd hhome (by decide)

end Request

namespace Aggregator

variable {a : Aggregator} {rs : List Request}

/-- Requests that do not belong in a registry add nothing to it. -/
theorem entriesIn_eq_nil (h : ∀ r ∈ rs, ∀ e, r.registration = some e → e.aggregator ≠ a) :
    a.entriesIn rs = [] := by
  by_contra hne
  obtain ⟨r, hr, e, hreg, ha⟩ := exists_of_entriesIn_ne_nil hne
  exact h r hr e hreg ha

/-- Requests that belong in a registry add an entry each, in order. -/
theorem entriesIn_map {names : List String} {request : String → Request}
    {line : String → Script.Entry}
    (h : ∀ name ∈ names, (request name).registration = some ⟨a, line name⟩) :
    a.entriesIn (names.map request) = names.map line := by
  induction names with
  | nil => rfl
  | cons name names ih =>
    rw [List.map_cons, ← List.singleton_append, entriesIn_append,
      ih fun n hn => h n (List.mem_cons_of_mem _ hn), entriesIn]
    simp [h name List.mem_cons_self]

/-- Entries that are put into a list of screens are its lines. -/
theorem content_screens {list : String} {screens : List String}
    (ha : a = .screenRegistry ∧ list = "stackScreens" ∨ a = .loginRegistry ∧ list = "loginScreens")
    (h : ∀ name ∈ screens, Name.isIdentifier name = true) :
    a.content (screens.map Request.screenLine) =
      Skeleton.text (Skeleton.screenList list screens) := by
  have hframe : a.frame = some ([], "export const " ++ list ++ " = [", "];") ∧
      ∃ file ∈ ["StackScreens.jsx", "LoginScreens.jsx"],
        a.location = ["Navigation", "screens", file] := by
    rcases ha with ⟨rfl, rfl⟩ | ⟨rfl, rfl⟩
    · exact ⟨rfl, _, List.mem_cons_self, rfl⟩
    · exact ⟨rfl, _, List.mem_cons_of_mem _ List.mem_cons_self, rfl⟩
  obtain ⟨hframe, file, hfile, hlocation⟩ := hframe
  have himports : a.importLines (screens.map Request.screenLine) =
      screens.map fun name => Skeleton.importDefault name ("../../Screens/" ++ name) := by
    rw [importLines, List.filterMap_map, ← List.filterMap_eq_map']
    refine List.filterMap_congr fun name hname => ?_
    obtain ⟨hslash, hne⟩ := Template.notMem_of_isIdentifier (h name hname)
    have hjoin : (⟨"src", ["Screens"]⟩ : Path).join (.ofText name) = ⟨"src", ["Screens", name]⟩ := by
      rw [Path.ofText_of_notMem hslash]
      exact (Path.isTrimmed_home .screen).join_eq hne
    have hline : (Request.screenLine name).importLine =
        some ⟨.default name, (⟨"src", ["Screens"]⟩ : Path).join (.ofText name)⟩ := rfl
    rw [Function.comp_apply, hline, hjoin, hlocation, Option.map_some, Script.ImportLine.render]
    simp only [Path.moduleSpecifier_screen (h name hname) hfile]
  have hentries : Skeleton.text ((screens.map Request.screenLine).map Script.Entry.fragment) =
      Skeleton.text (screens.flatMap Skeleton.screenEntry) := by
    clear h himports
    induction screens with
    | nil => rfl
    | cons name screens ih =>
      have hjoin : Text.join "\n" (Skeleton.screenEntry name) ++ "\n" =
          Skeleton.text (Skeleton.screenEntry name) := Skeleton.text_join (List.cons_ne_nil _ _)
      rw [List.map_cons, List.map_cons, Skeleton.text, ih, List.flatMap_cons, Skeleton.text_append,
        ← hjoin]
      rfl
  rw [content, hframe]
  simp only [himports, List.nil_append, Skeleton.screenList, Skeleton.text_append, Skeleton.text,
    hentries]

end Aggregator

/-- What is among files with different places is found. -/
theorem lookup_eq_some_of_mem {files : List (Location × String)} {loc : Location} {t : String}
    (h : (files.map Prod.fst).Nodup) (hmem : (loc, t) ∈ files) : files.lookup loc = some t := by
  induction files with
  | nil => cases hmem
  | cons file files ih =>
    rw [List.map_cons, List.nodup_cons] at h
    rw [List.lookup_cons]
    rcases List.mem_cons.mp hmem with rfl | hmem
    · rw [beq_self_eq_true]
    · have hne : (loc == file.1) = false := by
        rw [beq_eq_false_iff_ne]
        rintro rfl
        exact h.1 (List.mem_map.mpr ⟨_, hmem, rfl⟩)
      rw [hne, ih h.2 hmem]

/-- Of requests that share no file, each makes its own. -/
theorem firstFile_eq_some_iff {rs : List Request} {loc : Location} {t : String}
    (h : ((rs.flatMap Request.files).map Prod.fst).Nodup) :
    firstFile rs loc = some t ↔ ∃ r ∈ rs, (loc, t) ∈ r.files := by
  rw [firstFile, ← List.mem_flatMap]
  exact ⟨mem_of_lookup_eq_some, lookup_eq_some_of_mem h⟩

/-- A request whose templates accept it is accepted, if it does not ask for a screen. -/
theorem Settings.exists_prepare (s : Settings) {r : Request} {tree : FileTree}
    {entry : Option Template.RegistryEntry} (hne : r.archetype ≠ .screenApi)
    (htree : Template.instantiate s.extensions r.archetype r.params = .ok tree)
    (hentry : Template.registryEntry r.archetype r.params = .ok entry) (v : Volume) (root : Path) :
    ∃ tree entry, s.prepare v root r = .ok (tree, entry) :=
  ⟨tree, entry, prepare_eq_ok_iff.mpr ⟨htree, hentry, by rw [checkScreen, if_neg hne]⟩⟩

namespace PlanParts

variable {parts : PlanParts} {r : Request}

/-- The requests of a plan. -/
theorem mem_requests_iff : r ∈ (parts.plan {}).requests ↔
    r = .navigation parts.login {} ∨ (∃ name ∈ parts.screens, r = .screen name) ∨
      (parts.login = true ∧ r = .loginScreen loginScreenName) ∨
        ∃ url, parts.address = some url ∧ r = .apiConfig url := by
  have haddress : r ∈ (parts.address.map Request.apiConfig).toList ↔
      ∃ url, parts.address = some url ∧ r = .apiConfig url := by
    simp [Option.mem_toList, eq_comm]
  have hlogin : r ∈ (if parts.login then [Request.loginScreen loginScreenName] else []) ↔
      parts.login = true ∧ r = .loginScreen loginScreenName := by
    cases parts.login <;> simp
  rw [plan, Plan.project]
  simp only [List.mem_append, List.mem_singleton, List.mem_map, hlogin, haddress, or_assoc,
    eq_comm (a := r)]

/-- The request for a screen of a plan is checked. -/
theorem IsChecked.text_screen (h : parts.IsChecked) {name : String} (hname : name ∈ parts.screens) :
    (Request.screen name).params.text "name" = some name :=
  Request.text_name (h.identifier name hname)

/-- No two requests of a plan make the same file. -/
theorem IsChecked.nodup_files (h : parts.IsChecked) :
    (((parts.plan {}).requests.flatMap Request.files).map Prod.fst).Nodup := by
  rw [List.map_flatMap, List.nodup_flatMap]
  refine ⟨fun r _ => r.nodup_files, ?_⟩
  suffices hapart : (parts.plan {}).requests.Pairwise Request.Apart from
    hapart.imp fun hne => hne.disjoint_files
  have hlogin : (Request.loginScreen loginScreenName).params.text "name" = some loginScreenName := by
    decide
  rw [plan, Plan.project]
  dsimp only
  rw [List.pairwise_append, List.pairwise_append, List.pairwise_append]
  refine ⟨⟨⟨List.pairwise_singleton _ _, ?_, ?_⟩, ?_, ?_⟩, ?_, ?_⟩
  · refine List.pairwise_map.mpr (h.nodup.imp_of_mem fun hq hr hne _ => ⟨rfl, ?_⟩)
    rw [h.text_screen hq, h.text_screen hr]
    simpa using hne
  · intro q hq r hr heq
    obtain ⟨name, -, rfl⟩ := List.mem_map.mp hr
    rw [List.mem_singleton.mp hq] at heq
    exact absurd heq (show "Navigation" ≠ "Screens" by decide)
  · split_ifs
    · exact List.pairwise_singleton _ _
    · exact List.Pairwise.nil
  · intro q hq r hr heq
    split_ifs at hr with hasked
    · rw [List.mem_singleton.mp hr] at heq ⊢
      rcases List.mem_append.mp hq with hq | hq
      · rw [List.mem_singleton.mp hq] at heq
        exact absurd heq (show "Navigation" ≠ "Screens" by decide)
      · obtain ⟨name, hname, rfl⟩ := List.mem_map.mp hq
        refine ⟨rfl, ?_⟩
        rw [h.text_screen hname, hlogin, ne_eq, Option.some.injEq]
        rintro rfl
        exact h.login hasked hname
    · cases hr
  · cases parts.address with
    | none => exact List.Pairwise.nil
    | some url => exact List.pairwise_singleton _ _
  · intro q hq r hr heq
    have hapi : r.archetype.home = "Api" := by
      obtain ⟨url, -, rfl⟩ := Option.map_eq_some_iff.mp (Option.mem_toList.mp hr)
      rfl
    rw [hapi] at heq
    rcases List.mem_append.mp hq with hq | hq
    · rcases List.mem_append.mp hq with hq | hq
      · rw [List.mem_singleton.mp hq] at heq
        exact absurd heq (show "Navigation" ≠ "Api" by decide)
      · obtain ⟨name, -, rfl⟩ := List.mem_map.mp hq
        exact absurd heq (show "Screens" ≠ "Api" by decide)
    · split_ifs at hq
      · rw [List.mem_singleton.mp hq] at heq
        exact absurd heq (by decide)
      · cases hq

/-- Only screens are put into registries. -/
theorem entriesIn_plan (parts : PlanParts) (a : Aggregator) :
    a.entriesIn (parts.plan {}).requests = a.entriesIn (parts.screens.map Request.screen) ++
      a.entriesIn (if parts.login then [Request.loginScreen loginScreenName] else []) := by
  have hnavigation : a.entriesIn [Request.navigation parts.login {}] = [] := by
    refine Aggregator.entriesIn_eq_nil fun r hr e he => ?_
    rw [List.mem_singleton.mp hr, Request.registration_eq_none (by simp [Request.navigation])] at he
    cases he
  have haddress : a.entriesIn (parts.address.map Request.apiConfig).toList = [] := by
    refine Aggregator.entriesIn_eq_nil fun r hr e he => ?_
    obtain ⟨url, -, rfl⟩ := Option.map_eq_some_iff.mp (Option.mem_toList.mp hr)
    rw [Request.registration_eq_none (by simp [Request.apiConfig])] at he
    cases he
  rw [plan, Plan.project]
  dsimp only
  rw [Aggregator.entriesIn_append, Aggregator.entriesIn_append, Aggregator.entriesIn_append,
    hnavigation, haddress, List.nil_append, List.append_nil]

/-- What the screens of a plan add to registries. -/
theorem IsChecked.registration_screen (h : parts.IsChecked) {name : String}
    (hname : name ∈ parts.screens) : (Request.screen name).registration =
      some ⟨.screenRegistry, Request.screenLine name⟩ :=
  Request.registration_screen (.inl rfl) (h.text_screen hname) (h.identifier name hname)

/-- What the login screen adds to a registry. -/
theorem registration_login : (Request.loginScreen loginScreenName).registration =
    some ⟨.loginRegistry, Request.screenLine loginScreenName⟩ :=
  Request.registration_screen (.inr rfl) (by decide) (by decide)

/-- The entries in the list of the main stack are those of the screens. -/
theorem IsChecked.entriesIn_screenRegistry (h : parts.IsChecked) :
    Aggregator.screenRegistry.entriesIn (parts.plan {}).requests =
      parts.screens.map Request.screenLine := by
  have hlogin : Aggregator.screenRegistry.entriesIn
      (if parts.login then [Request.loginScreen loginScreenName] else []) = [] := by
    refine Aggregator.entriesIn_eq_nil fun r hr e he => ?_
    split_ifs at hr
    · rw [List.mem_singleton.mp hr, registration_login] at he
      rw [← Option.some.inj he]
      simp
    · cases hr
  rw [entriesIn_plan, hlogin, List.append_nil,
    Aggregator.entriesIn_map fun name hname => h.registration_screen hname]

/-- The only entry in the list before sign-in is that of the login screen. -/
theorem IsChecked.entriesIn_loginRegistry (h : parts.IsChecked) :
    Aggregator.loginRegistry.entriesIn (parts.plan {}).requests =
      (if parts.login then [loginScreenName] else []).map Request.screenLine := by
  have hscreens : Aggregator.loginRegistry.entriesIn (parts.screens.map Request.screen) = [] := by
    refine Aggregator.entriesIn_eq_nil fun r hr e he => ?_
    obtain ⟨name, hname, rfl⟩ := List.mem_map.mp hr
    rw [h.registration_screen hname] at he
    rw [← Option.some.inj he]
    simp
  have hlogin : (if parts.login then [Request.loginScreen loginScreenName] else []) =
      (if parts.login then [loginScreenName] else []).map Request.loginScreen := by
    split_ifs
    · rfl
    · rfl
  rw [entriesIn_plan, hscreens, List.nil_append, hlogin]
  refine Aggregator.entriesIn_map fun name hname => ?_
  split_ifs at hname
  · rw [List.mem_singleton.mp hname]
    exact registration_login
  · cases hname

/-- The requests of a plan are accepted on every disk. -/
theorem IsChecked.prepare (h : parts.IsChecked) (root : Path) :
    ∀ r ∈ (parts.plan {}).requests, ∀ v, ∃ tree entry,
      Settings.prepare {} v root r = .ok (tree, entry) := by
  intro r hr v
  rcases mem_requests_iff.mp hr with rfl | ⟨name, hname, rfl⟩ | ⟨-, rfl⟩ | ⟨url, hurl, rfl⟩
  · exact ⟨_, _, rfl⟩
  · have hgiven := h.text_screen hname
    have hident := h.identifier name hname
    have htree := Template.instantiate_screen (e := {}) (a := .screen) (.inl rfl) hgiven hident
    have hentry := Template.registryEntry_screen (a := .screen) (.inl rfl) hgiven hident
    exact Settings.exists_prepare {} (r := .screen name) (by simp [Request.screen]) htree hentry v root
  · exact ⟨_, _, rfl⟩
  · obtain ⟨raw, hraw⟩ := h.address url hurl
    obtain ⟨hgiven, hquote⟩ := Request.text_baseUrl hraw
    have htree := Template.instantiate_apiConfig (e := {}) hgiven hquote (by decide)
    have hentry : Template.registryEntry .apiConfig (Request.apiConfig url).params = .ok none := by
      have hrequired := Template.checkRequired_one (a := .apiConfig) hgiven
      simp only [Template.registryEntry, Archetype.required, Request.apiConfig, hrequired, bind,
        Except.bind]
    exact Settings.exists_prepare {} (r := .apiConfig url) (by simp [Request.apiConfig]) htree hentry v
      root

/-- The list of the main stack is there if there are screens. -/
theorem IsChecked.contents_screenRegistry (h : parts.IsChecked) :
    contents (parts.plan {}).requests Aggregator.screenRegistry.location =
      if parts.screens = [] then none
      else some (Skeleton.text (Skeleton.screenList "stackScreens" parts.screens)) := by
  have hcontents := contents_location (parts.plan {}).requests .screenRegistry
  rw [h.entriesIn_screenRegistry, Aggregator.content_screens (.inl ⟨rfl, rfl⟩) h.identifier]
    at hcontents
  simpa using hcontents

/-- The list before sign-in is there if there is a login. -/
theorem IsChecked.contents_loginRegistry (h : parts.IsChecked) :
    contents (parts.plan {}).requests Aggregator.loginRegistry.location =
      if parts.login then
        some (Skeleton.text (Skeleton.screenList "loginScreens" [loginScreenName]))
      else none := by
  have hcontents := contents_location (parts.plan {}).requests .loginRegistry
  have hident : ∀ name ∈ (if parts.login then [loginScreenName] else []),
      Name.isIdentifier name = true := by
    intro name hname
    split_ifs at hname
    · rw [List.mem_singleton.mp hname]
      decide
    · cases hname
  rw [h.entriesIn_loginRegistry, Aggregator.content_screens (.inr ⟨rfl, rfl⟩) hident] at hcontents
  cases hlogin : parts.login with
  | true => simpa [hlogin] using hcontents
  | false => simpa [hlogin] using hcontents

/-- There is a file for the base address if there is a base address. -/
theorem IsChecked.contents_address (h : parts.IsChecked) :
    contents (parts.plan {}).requests ["Api", "api.config.js"] ≠ none ↔ parts.address ≠ none := by
  have hfile : contents (parts.plan {}).requests ["Api", "api.config.js"] =
      firstFile (parts.plan {}).requests ["Api", "api.config.js"] := by
    refine contents_of_ne _ fun a => ?_
    cases a with
    | _ => simp [Aggregator.location]
  rw [hfile, Option.ne_none_iff_exists', Option.ne_none_iff_exists']
  simp only [firstFile_eq_some_iff h.nodup_files]
  constructor
  · rintro ⟨t, r, hr, hmem⟩
    have hhome : r.archetype.home = "Api" := by
      rcases Request.location_cases hmem with ⟨-, name, file, -, -, -, hloc⟩ | ⟨-, file, -, hloc⟩
      · cases congrArg List.length hloc
      · exact (List.cons.inj hloc).1.symm
    rcases mem_requests_iff.mp hr with rfl | ⟨name, -, rfl⟩ | ⟨-, rfl⟩ | ⟨url, hurl, -⟩
    · exact absurd hhome (show "Navigation" ≠ "Api" by decide)
    · exact absurd hhome (show "Screens" ≠ "Api" by decide)
    · exact absurd hhome (show "Screens" ≠ "Api" by decide)
    · exact ⟨url, hurl⟩
  · rintro ⟨url, hurl⟩
    obtain ⟨raw, hraw⟩ := h.address url hurl
    have hmem := List.mem_singleton_self
      (["Api", "api.config.js"], Skeleton.text (Skeleton.baseAddress (Address.normal url)))
    rw [← Request.files_apiConfig hraw] at hmem
    exact ⟨_, _, mem_requests_iff.mpr (.inr (.inr (.inr ⟨url, hurl, rfl⟩))), hmem⟩

end PlanParts

end AppScaffold
