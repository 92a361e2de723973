import AppScaffold.Proofs.Project.Success
import AppScaffold.Proofs.Script.Skeletons

/-!
# Which specifiers of a new project lead to files

The files of a new project are listed with their lines. A specifier that begins with a dot leads to
a file of the list, with one exception: the navigator of the main stack names the list of its
screens, which is not made for a project without screens.
-/

namespace AppScaffold

namespace Specifier

variable {base dir place segments names : List String} {s : String}

/-- The specifier is a way from the directory of the script. -/
def IsRelative (specifier : String) : Prop := specifier.toList.head? = some '.'

instance (specifier : String) : Decidable (IsRelative specifier) :=
  inferInstanceAs (Decidable (_ = _))

/-- The files that a place may stand for: a component or a script of that name, or the index of the
directory. -/
def moduleFiles (place : Location) : List Location :=
  match place.getLast? with
  | some last => [place.dropLast ++ [last ++ ".jsx"], place.dropLast ++ [last ++ ".js"],
      place ++ ["index.js"]]
  | none => [["index.js"]]

/-- A specifier in a script leads to a file. -/
def Resolves (d : Disk) (script : Location) (specifier : String) : Prop :=
  ∃ place, resolve script.dropLast specifier = some place ∧
    ∃ target ∈ moduleFiles place, ∃ c, d.get? target = some (.file c)

/-- Below a base the same files are meant. -/
theorem moduleFiles_append (base : Location) (hne : place ≠ []) :
    moduleFiles (base ++ place) = (moduleFiles place).map (base ++ ·) := by
  obtain ⟨dirs, last, rfl⟩ := List.eq_nil_or_concat' place |>.resolve_left hne
  rw [← List.append_assoc, moduleFiles, moduleFiles]
  simp

/-- A way that can be followed can be followed below a base. -/
theorem follow_below (base : Location) (h : follow dir segments = some place) :
    follow (base ++ dir) segments = some (base ++ place) := by
  induction segments generalizing dir with
  | nil =>
    rw [follow] at h ⊢
    rw [Option.some.inj h]
  | cons s segments ih =>
    rw [follow] at h ⊢
    cases hs : Component.ofSegment s with
    | none =>
      rw [hs] at h
      exact ih h
    | some c =>
      rw [hs] at h
      cases c with
      | up =>
        simp only at h ⊢
        split_ifs at h with hdir
        rw [if_neg (by simp [hdir]), List.dropLast_append_of_ne_nil hdir]
        exact ih h
      | root | here | name =>
        simp only at h ⊢
        rw [List.append_assoc]
        exact ih h

/-- The place beside the script. -/
theorem resolve_beside (dir : Location) (hslash : '/' ∉ s.toList) (hs : IsSegment s) :
    resolve dir ("./" ++ s) = some (dir ++ [s]) := by
  have hjoin : "./" ++ s = Text.join (String.singleton '/') [".", s] := by
    rw [Text.join, Text.join]
    · rfl
    · simp
  have hhere : Component.ofSegment "." = none := by decide
  rw [resolve, hjoin, Text.split_join (List.cons_ne_nil _ _) (by simpa using hslash), follow, hhere]
  exact follow_names (List.forall_mem_singleton.mpr hs)

/-- The directory of a screen, seen from the lists of screens. -/
theorem resolve_screen (hslash : '/' ∉ s.toList) (hs : IsSegment s) :
    resolve ["Navigation", "screens"] ("../../Screens/" ++ s) = some ["Screens", s] := by
  have hjoin : "../../Screens/" ++ s =
      Text.join (String.singleton '/') ["..", "..", "Screens", s] := by
    rw [Text.join, Text.join, Text.join, Text.join]
    · rfl
    all_goals simp
  have hup : Component.ofSegment ".." = some .up := by decide
  have hsegments : ∀ t ∈ ["Screens", s], IsSegment t := by
    simpa using ⟨show IsSegment "Screens" by decide, hs⟩
  rw [resolve, hjoin, Text.split_join (List.cons_ne_nil _ _) (by simpa using hslash), follow, hup]
  simp only [follow, hup]
  exact follow_names hsegments

end Specifier

namespace PlanParts

variable {parts : PlanParts} {loc : Location} {lines : List String} {name t : String}

/-- The screens of all stacks. -/
def allScreens (parts : PlanParts) : List String :=
  parts.screens ++ if parts.login then [loginScreenName] else []

/-- The sources of the new project hold a file with these lines. -/
inductive Holds (parts : PlanParts) : Location → List String → Prop where
  /-- The navigator of the main stack. -/
  | appNavigation : Holds parts ["Navigation", "AppNavigation.jsx"]
      (Skeleton.navigator "AppNavigation" "stackScreens" "./screens/StackScreens")
  /-- The container of the navigators. -/
  | mainNavigation : Holds parts ["Navigation", "MainNavigation.jsx"]
      (Skeleton.mainNavigation parts.login)
  /-- The navigator of the stack before sign-in. -/
  | loginNavigation (h : parts.login = true) : Holds parts ["Navigation", "LoginNavigation.jsx"]
      (Skeleton.navigator "LoginNavigation" "loginScreens" "./screens/LoginScreens")
  /-- The component of a screen. -/
  | component {name : String} (h : name ∈ parts.allScreens) :
      Holds parts ["Screens", name, name ++ ".jsx"] (Skeleton.screen name (Name.title name))
  /-- The style sheet of a screen. -/
  | styles {name : String} (h : name ∈ parts.allScreens) :
      Holds parts ["Screens", name, name ++ ".style.js"] Skeleton.screenStyles
  /-- The index of a screen. -/
  | index {name : String} (h : name ∈ parts.allScreens) :
      Holds parts ["Screens", name, "index.js"] (Skeleton.index name)
  /-- The base address. -/
  | address {url : String} (h : parts.address = some url) :
      Holds parts ["Api", "api.config.js"] (Skeleton.baseAddress (Address.normal url))
  /-- The list of the main stack. -/
  | stackScreens (h : parts.screens ≠ []) :
      Holds parts ["Navigation", "screens", "StackScreens.jsx"]
        (Skeleton.screenList "stackScreens" parts.screens)
  /-- The list of the stack before sign-in. -/
  | loginScreens (h : parts.login = true) :
      Holds parts ["Navigation", "screens", "LoginScreens.jsx"]
        (Skeleton.screenList "loginScreens" [loginScreenName])

/-- All screens have names that are identifiers. -/
theorem IsChecked.isIdentifier (h : parts.IsChecked) (hname : name ∈ parts.allScreens) :
    Name.isIdentifier name = true := by
  rcases List.mem_append.mp hname with hname | hname
  · exact h.identifier name hname
  · split_ifs at hname
    · rw [List.mem_singleton.mp hname]
      decide
    · cases hname

/-- Each screen is asked for. -/
theorem IsChecked.exists_request (h : parts.IsChecked) (hname : name ∈ parts.allScreens) :
    ∃ r ∈ (parts.plan {}).requests, (r.archetype = .screen ∨ r.archetype = .loginScreen) ∧
      r.params.text "name" = some name := by
  rcases List.mem_append.mp hname with hscreen | hscreen
  · exact ⟨.screen name, mem_requests_iff.mpr (.inr (.inl ⟨name, hscreen, rfl⟩)), .inl rfl,
      h.text_screen hscreen⟩
  · split_ifs at hscreen with hlogin
    · obtain rfl := List.mem_singleton.mp hscreen
      exact ⟨.loginScreen loginScreenName, mem_requests_iff.mpr (.inr (.inr (.inl ⟨hlogin, rfl⟩))),
        .inr rfl, by decide⟩
    · cases hscreen

/-- What a request makes is there. -/
theorem IsChecked.contents_of_mem (h : parts.IsChecked) {r : Request}
    (hr : r ∈ (parts.plan {}).requests) (hmem : (loc, t) ∈ r.files) :
    contents (parts.plan {}).requests loc = some t := by
  rw [contents_of_mem_files _ hmem, firstFile_eq_some_iff h.nodup_files]
  exact ⟨r, hr, hmem⟩

/-- The files of the requests are held. -/
theorem IsChecked.holds_of_mem_files (h : parts.IsChecked) {r : Request}
    (hr : r ∈ (parts.plan {}).requests) (hmem : (loc, t) ∈ r.files) :
    ∃ lines, parts.Holds loc lines ∧ t = Skeleton.text lines := by
  have hscreen : ∀ name ∈ parts.allScreens, (loc, t) ∈
      [(["Screens", name, name ++ ".jsx"], Skeleton.text (Skeleton.screen name (Name.title name))),
        (["Screens", name, name ++ ".style.js"], Skeleton.text Skeleton.screenStyles),
        (["Screens", name, "index.js"], Skeleton.text (Skeleton.index name))] →
      ∃ lines, parts.Holds loc lines ∧ t = Skeleton.text lines := by
    intro name hname hfile
    simp only [List.mem_cons, List.not_mem_nil, or_false, Prod.mk.injEq] at hfile
    rcases hfile with ⟨rfl, rfl⟩ | ⟨rfl, rfl⟩ | ⟨rfl, rfl⟩
    · exact ⟨_, .component hname, rfl⟩
    · exact ⟨_, .styles hname, rfl⟩
    · exact ⟨_, .index hname, rfl⟩
  rcases mem_requests_iff.mp hr with rfl | ⟨name, hname, rfl⟩ | ⟨hlogin, rfl⟩ | ⟨url, hurl, rfl⟩
  · rw [Request.files_navigation, List.mem_append] at hmem
    rcases hmem with hmem | hmem
    · simp only [List.mem_cons, List.not_mem_nil, or_false, Prod.mk.injEq] at hmem
      rcases hmem with ⟨rfl, rfl⟩ | ⟨rfl, rfl⟩
      · exact ⟨_, .appNavigation, rfl⟩
      · exact ⟨_, .mainNavigation, rfl⟩
    · split_ifs at hmem with hlogin
      · obtain ⟨rfl, rfl⟩ := Prod.mk.inj (List.mem_singleton.mp hmem)
        exact ⟨_, .loginNavigation hlogin, rfl⟩
      · cases hmem
  · rw [Request.files_screen (.inl rfl) (h.text_screen hname) (h.identifier name hname)] at hmem
    exact hscreen name (List.mem_append_left _ hname) hmem
  · have hgiven : (Request.loginScreen loginScreenName).params.text "name" = some loginScreenName := by
      decide
    rw [Request.files_screen (.inr rfl) hgiven (by decide)] at hmem
    exact hscreen loginScreenName (List.mem_append_right _ (by simp [hlogin])) hmem
  · obtain ⟨raw, hraw⟩ := h.address url hurl
    rw [Request.files_apiConfig hraw] at hmem
    obtain ⟨rfl, rfl⟩ := Prod.mk.inj (List.mem_singleton.mp hmem)
    exact ⟨_, .address hurl, rfl⟩

/-- The registries of the requests are held. -/
theorem IsChecked.holds_of_location (h : parts.IsChecked) {a : Aggregator}
    (ht : contents (parts.plan {}).requests a.location = some t) :
    ∃ lines, parts.Holds a.location lines ∧ t = Skeleton.text lines := by
  have hmem : a ∈ [Aggregator.screenRegistry, .loginRegistry] := by
    have hne : a.entriesIn (parts.plan {}).requests ≠ [] := by
      intro hnil
      rw [contents_location, if_pos hnil] at ht
      cases ht
    obtain ⟨r, hr, e, he, rfl⟩ := Aggregator.exists_of_entriesIn_ne_nil hne
    exact (h.isSettled hr).registry e he
  simp only [List.mem_cons, List.not_mem_nil, or_false] at hmem
  rcases hmem with rfl | rfl
  · rw [h.contents_screenRegistry] at ht
    split_ifs at ht with hscreens
    exact ⟨_, .stackScreens hscreens, (Option.some.inj ht).symm⟩
  · rw [h.contents_loginRegistry] at ht
    split_ifs at ht with hlogin
    exact ⟨_, .loginScreens hlogin, (Option.some.inj ht).symm⟩

/-- The requests of a plan make the files of the list, and no others. -/
theorem IsChecked.contents_eq_some_iff (h : parts.IsChecked) :
    contents (parts.plan {}).requests loc = some t ↔
      ∃ lines, parts.Holds loc lines ∧ t = Skeleton.text lines := by
  constructor
  · intro ht
    by_cases ha : ∃ a : Aggregator, loc = a.location
    · obtain ⟨a, rfl⟩ := ha
      exact h.holds_of_location ht
    · rw [contents_of_ne _ (not_exists.mp ha), firstFile_eq_some_iff h.nodup_files] at ht
      obtain ⟨r, hr, hmem⟩ := ht
      exact h.holds_of_mem_files hr hmem
  · rintro ⟨lines, hholds, rfl⟩
    have hnavigation := mem_requests_iff.mpr (.inl (Eq.refl (Request.navigation parts.login {})))
    have hscreen : ∀ name ∈ parts.allScreens, ∃ r ∈ (parts.plan {}).requests, r.files =
        [(["Screens", name, name ++ ".jsx"], Skeleton.text (Skeleton.screen name (Name.title name))),
          (["Screens", name, name ++ ".style.js"], Skeleton.text Skeleton.screenStyles),
          (["Screens", name, "index.js"], Skeleton.text (Skeleton.index name))] := by
      intro name hname
      obtain ⟨r, hr, ha, hgiven⟩ := h.exists_request hname
      exact ⟨r, hr, Request.files_screen ha hgiven (h.isIdentifier hname)⟩
    cases hholds with
    | appNavigation => exact h.contents_of_mem hnavigation (by simp [Request.files_navigation])
    | mainNavigation => exact h.contents_of_mem hnavigation (by simp [Request.files_navigation])
    | loginNavigation hlogin =>
      exact h.contents_of_mem hnavigation (by simp [Request.files_navigation, hlogin])
    | component hname =>
      obtain ⟨r, hr, hfiles⟩ := hscreen _ hname
      exact h.contents_of_mem hr (by simp [hfiles])
    | styles hname =>
      obtain ⟨r, hr, hfiles⟩ := hscreen _ hname
      exact h.contents_of_mem hr (by simp [hfiles])
    | index hname =>
      obtain ⟨r, hr, hfiles⟩ := hscreen _ hname
      exact h.contents_of_mem hr (by simp [hfiles])
    | @address url hurl =>
      obtain ⟨raw, hraw⟩ := h.address url hurl
      have hr := mem_requests_iff.mpr (.inr (.inr (.inr ⟨url, hurl, rfl⟩)))
      exact h.contents_of_mem hr (by simp [Request.files_apiConfig hraw])
    | stackScreens hscreens => exact h.contents_screenRegistry.trans (if_neg hscreens)
    | loginScreens hlogin => exact h.contents_loginRegistry.trans (if_pos hlogin)

/-- A specifier in a script of the sources leads to a place at which the sources hold a file. -/
def Finds (parts : PlanParts) (loc : Location) (specifier : String) : Prop :=
  ∃ place, place ≠ [] ∧ Specifier.resolve loc.dropLast specifier = some place ∧
    ∃ target ∈ Specifier.moduleFiles place, ∃ lines, parts.Holds target lines

variable {specifier : String}

/-- A script names its neighbour by a dot and the name. -/
theorem finds_beside (dirs : Location) (s : String) {file target : String}
    (hslash : '/' ∉ s.toList) (hs : IsSegment s)
    (htarget : target = s ++ ".jsx" ∨ target = s ++ ".js")
    (hholds : parts.Holds (dirs ++ [target]) lines) :
    parts.Finds (dirs ++ [file]) ("./" ++ s) := by
  refine ⟨dirs ++ [s], by simp, ?_, dirs ++ [target], ?_, lines, hholds⟩
  · rw [List.dropLast_concat]
    exact Specifier.resolve_beside dirs hslash hs
  · rw [Specifier.moduleFiles, List.getLast?_concat, List.dropLast_concat]
    rcases htarget with rfl | rfl
    · exact List.mem_cons_self
    · exact List.mem_cons_of_mem _ List.mem_cons_self

/-- A list of screens finds the index of each of them. -/
theorem IsChecked.finds_screen (h : parts.IsChecked) (hname : name ∈ parts.allScreens)
    (file : String) : parts.Finds ["Navigation", "screens", file] ("../../Screens/" ++ name) := by
  have hident := h.isIdentifier hname
  refine ⟨["Screens", name], List.cons_ne_nil _ _, ?_, ["Screens", name, "index.js"], ?_, _,
    .index hname⟩
  · exact Specifier.resolve_screen (Template.notMem_of_isIdentifier hident).1
      (isSegment_of_isIdentifier hident).1
  · simp [Specifier.moduleFiles]

/-- A way from one script of the sources to another is found, but for the way to the list of the main
stack. -/
theorem IsChecked.finds_or_stackScreens (h : parts.IsChecked) (hholds : parts.Holds loc lines)
    (hspecifier : specifier ∈ Script.specifiers (Skeleton.text lines))
    (hrelative : Specifier.IsRelative specifier) :
    parts.Finds loc specifier ∨
      loc = ["Navigation", "AppNavigation.jsx"] ∧ specifier = "./screens/StackScreens" := by
  have hquiet : ∀ name ∈ parts.allScreens, Script.IsQuiet name := fun name hname =>
    .of_isIdentifier (h.isIdentifier hname)
  cases hholds with
  | appNavigation =>
    rw [(Script.names_navigator (.of_chars rfl) (.of_chars rfl) (.of_chars rfl)).specifiers_text]
      at hspecifier
    simp only [List.mem_cons, List.not_mem_nil, or_false] at hspecifier
    rcases hspecifier with rfl | rfl | rfl
    · exact absurd hrelative (by decide)
    · exact absurd hrelative (by decide)
    · exact .inr ⟨rfl, rfl⟩
  | mainNavigation =>
    rw [(Script.names_mainNavigation parts.login).specifiers_text, List.mem_append] at hspecifier
    rcases hspecifier with hspecifier | hspecifier
    · simp only [List.mem_cons, List.not_mem_nil, or_false] at hspecifier
      rcases hspecifier with rfl | rfl | rfl
      · exact absurd hrelative (by decide)
      · exact absurd hrelative (by decide)
      · exact .inl (finds_beside ["Navigation"] "AppNavigation" (by decide) (by decide) (.inl rfl)
          .appNavigation)
    · split_ifs at hspecifier with hlogin
      · obtain rfl := List.mem_singleton.mp hspecifier
        exact .inl (finds_beside ["Navigation"] "LoginNavigation" (by decide) (by decide)
          (.inl rfl) (.loginNavigation hlogin))
      · cases hspecifier
  | loginNavigation hlogin =>
    rw [(Script.names_navigator (.of_chars rfl) (.of_chars rfl) (.of_chars rfl)).specifiers_text]
      at hspecifier
    simp only [List.mem_cons, List.not_mem_nil, or_false] at hspecifier
    rcases hspecifier with rfl | rfl | rfl
    · exact absurd hrelative (by decide)
    · exact absurd hrelative (by decide)
    · exact .inl ⟨["Navigation", "screens", "LoginScreens"], by decide, by decide,
        ["Navigation", "screens", "LoginScreens.jsx"], by decide, _, .loginScreens hlogin⟩
  | @component name hname =>
    have hident := h.isIdentifier hname
    rw [(Script.names_screen (hquiet name hname) (.title hident)).specifiers_text] at hspecifier
    simp only [List.mem_cons, List.not_mem_nil, or_false] at hspecifier
    rcases hspecifier with rfl | rfl | rfl | rfl
    · exact absurd hrelative (by decide)
    · exact absurd hrelative (by decide)
    · exact absurd hrelative (by decide)
    · have hslash : '/' ∉ (name ++ ".style").toList := by
        simp [(Template.notMem_of_isIdentifier hident).1]
      have hsegment : IsSegment (name ++ ".style") :=
        isSegment_of_mem (c := 's') (by simp) (by decide)
      rw [String.append_assoc]
      exact .inl (finds_beside ["Screens", name] (name ++ ".style") hslash hsegment
        (.inr (String.append_assoc ..).symm) (.styles hname))
  | styles =>
    rw [Script.names_screenStyles.specifiers_text, List.mem_singleton] at hspecifier
    subst hspecifier
    exact absurd hrelative (by decide)
  | @index name hname =>
    have hident := h.isIdentifier hname
    rw [(Script.names_index (hquiet name hname)).specifiers_text, List.mem_singleton] at hspecifier
    subst hspecifier
    exact .inl (finds_beside ["Screens", name] name (Template.notMem_of_isIdentifier hident).1
      (isSegment_of_isIdentifier hident).1 (.inl rfl) (.component hname))
  | @address url hurl =>
    obtain ⟨raw, hraw⟩ := h.address url hurl
    rw [(Script.names_baseAddress (Script.IsQuiet.of_baseUrl hraw).normal).specifiers_text]
      at hspecifier
    cases hspecifier
  | stackScreens =>
    have hscreens : ∀ name ∈ parts.screens, name ∈ parts.allScreens := fun name hname =>
      List.mem_append_left _ hname
    rw [(Script.names_screenList (.of_chars rfl) fun name hname =>
      hquiet name (hscreens name hname)).specifiers_text, List.mem_map] at hspecifier
    obtain ⟨name, hname, rfl⟩ := hspecifier
    exact .inl (h.finds_screen (hscreens name hname) _)
  | loginScreens hlogin =>
    have hname : loginScreenName ∈ parts.allScreens := List.mem_append_right _ (by simp [hlogin])
    rw [(Script.names_screenList (.of_chars rfl) (List.forall_mem_singleton.mpr
      (hquiet loginScreenName hname))).specifiers_text, List.map_singleton, List.mem_singleton]
      at hspecifier
    subst hspecifier
    exact .inl (h.finds_screen hname _)

/-- The way to the list of the main stack is found if there are screens. -/
theorem finds_stackScreens_iff :
    parts.Finds ["Navigation", "AppNavigation.jsx"] "./screens/StackScreens" ↔
      parts.screens ≠ [] := by
  have hresolve : Specifier.resolve ["Navigation"] "./screens/StackScreens" =
      some ["Navigation", "screens", "StackScreens"] := by decide
  constructor
  · rintro ⟨place, -, hplace, target, htarget, lines, hholds⟩
    obtain rfl := Option.some.inj (hplace.symm.trans hresolve)
    have hcases : target ∈ [["Navigation", "screens", "StackScreens.jsx"],
        ["Navigation", "screens", "StackScreens.js"],
        ["Navigation", "screens", "StackScreens", "index.js"]] := htarget
    cases hholds with
    | stackScreens hscreens => exact hscreens
    | _ => simp at hcases
  · intro hscreens
    exact ⟨_, by decide, hresolve, ["Navigation", "screens", "StackScreens.jsx"], by decide, _,
      .stackScreens hscreens⟩

/-- A file of the sources lies below them. -/
theorem Holds.ne_nil (h : parts.Holds loc lines) : loc ≠ [] := by
  cases h with
  | _ => exact List.cons_ne_nil _ _

/-- Where the disk has the files of the sources, a specifier leads to a file of the disk if it is
found among the sources. -/
theorem IsChecked.resolves_iff (h : parts.IsChecked) {d : Disk} {dir place : Location}
    (hfiles : ∀ file c, d.get? (dir ++ file) = some (.file c) ↔ ∃ loc t, file = "src" :: loc ∧
      contents (parts.plan {}).requests loc = some t ∧ c = .text t)
    (hloc : loc ≠ []) (hplace : Specifier.resolve loc.dropLast specifier = some place)
    (hne : place ≠ []) :
    Specifier.Resolves d (dir ++ "src" :: loc) specifier ↔ parts.Finds loc specifier := by
  have hscript : (dir ++ "src" :: loc).dropLast = (dir ++ ["src"]) ++ loc.dropLast := by
    rw [List.append_cons, List.dropLast_append_of_ne_nil hloc]
  have hresolve : Specifier.resolve (dir ++ "src" :: loc).dropLast specifier =
      some ((dir ++ ["src"]) ++ place) := by
    rw [hscript]
    exact Specifier.follow_below _ hplace
  have hget : ∀ target c, d.get? ((dir ++ ["src"]) ++ target) = some (.file c) ↔
      ∃ lines, parts.Holds target lines ∧ c = .text (Skeleton.text lines) := by
    intro target c
    rw [← List.append_cons, hfiles]
    constructor
    · rintro ⟨loc, t, heq, ht, rfl⟩
      obtain rfl := (List.cons.inj heq).2
      obtain ⟨lines, hholds, rfl⟩ := h.contents_eq_some_iff.mp ht
      exact ⟨lines, hholds, rfl⟩
    · rintro ⟨lines, hholds, rfl⟩
      exact ⟨target, _, rfl, h.contents_eq_some_iff.mpr ⟨lines, hholds, rfl⟩, rfl⟩
  constructor
  · rintro ⟨there, hthere, target, htarget, c, hc⟩
    obtain rfl := Option.some.inj (hthere.symm.trans hresolve)
    rw [Specifier.moduleFiles_append _ hne] at htarget
    obtain ⟨below, hbelow, rfl⟩ := List.mem_map.mp htarget
    obtain ⟨lines, hholds, -⟩ := (hget below c).mp hc
    exact ⟨place, hne, hplace, below, hbelow, lines, hholds⟩
  · rintro ⟨there, -, hthere, target, htarget, lines, hholds⟩
    obtain rfl := Option.some.inj (hthere.symm.trans hplace)
    refine ⟨_, hresolve, (dir ++ ["src"]) ++ target, ?_, _, (hget target _).mpr ⟨lines, hholds, rfl⟩⟩
    rw [Specifier.moduleFiles_append _ hne]
    exact List.mem_map_of_mem htarget

/-- The only specifier of a new project that can lead nowhere is that of the list of the main stack in
its navigator, and it leads nowhere if the plan has no screens. -/
theorem IsChecked.resolves_iff_of_mem (h : parts.IsChecked) {d : Disk} {dir file : Location}
    (hfiles : ∀ file c, d.get? (dir ++ file) = some (.file c) ↔ ∃ loc t, file = "src" :: loc ∧
      contents (parts.plan {}).requests loc = some t ∧ c = .text t)
    (hfile : d.get? (dir ++ file) = some (.file (.text t)))
    (hspecifier : specifier ∈ Script.specifiers t) (hrelative : Specifier.IsRelative specifier) :
    Specifier.Resolves d (dir ++ file) specifier ↔
      ¬(parts.screens = [] ∧ file = ["src", "Navigation", "AppNavigation.jsx"] ∧
        specifier = "./screens/StackScreens") := by
  obtain ⟨loc, t', rfl, ht, heq⟩ := (hfiles file _).mp hfile
  obtain rfl := Content.text.inj heq
  obtain ⟨lines, hholds, rfl⟩ := h.contents_eq_some_iff.mp ht
  rcases h.finds_or_stackScreens hholds hspecifier hrelative with hfinds | ⟨rfl, rfl⟩
  · have hresolves : Specifier.Resolves d (dir ++ "src" :: loc) specifier := by
      obtain ⟨place, hne, hplace, htargets⟩ := hfinds
      exact (h.resolves_iff hfiles hholds.ne_nil hplace hne).mpr ⟨place, hne, hplace, htargets⟩
    refine iff_of_true hresolves ?_
    rintro ⟨hnone, hnavigator, hsame⟩
    rw [(List.cons.inj hnavigator).2, hsame] at hfinds
    exact finds_stackScreens_iff.mp hfinds hnone
  · have hplace : Specifier.resolve ["Navigation"] "./screens/StackScreens" =
        some ["Navigation", "screens", "StackScreens"] := by decide
    rw [h.resolves_iff hfiles hholds.ne_nil hplace (List.cons_ne_nil _ _), finds_stackScreens_iff]
    simp

/-- A plan asks for screens if it has names for them. -/
theorem forall_archetype_ne_screen_iff :
    (∀ r ∈ (parts.plan {}).requests, r.archetype ≠ .screen) ↔ parts.screens = [] := by
  constructor
  · intro h
    refine List.eq_nil_iff_forall_not_mem.mpr fun name hname => ?_
    exact h _ (mem_requests_iff.mpr (.inr (.inl ⟨name, hname, rfl⟩))) rfl
  · intro hnone r hr hscreen
    rcases mem_requests_iff.mp hr with rfl | ⟨name, hname, rfl⟩ | ⟨-, rfl⟩ | ⟨url, -, rfl⟩
    · cases hscreen
    · rw [hnone] at hname
      cases hname
    · cases hscreen
    · cases hscreen

end PlanParts

namespace Settings

variable {asked features : Features} {tools : Tools} {g : Gateway} {v u : Volume} {workdir : Path}
  {p : Plan} {dir : Location} {summary : RunSummary}

/-- A run that comes to a summary has created the project and carried out its requests. -/
theorem exists_generateAll_of_runPlan {s : Settings}
    (h : (s.runPlan g v workdir p).result = .ok summary) :
    ∃ results w, (s.createProject g v workdir p).result = .ok () ∧
      s.generateAll (s.createProject g v workdir p).volume (p.root workdir) p.requests =
        (results, w) ∧
      summary.outcomes = outcomesOf results ∧ summary.rejected = refusalsOf results ∧
      (s.runPlan g v workdir p).volume = (s.installPackages g w (p.root workdir)).volume := by
  cases hcreated : (s.createProject g v workdir p).result with
  | error e =>
    unfold runPlan at h
    simp only [hcreated] at h
    cases h
  | ok =>
    obtain ⟨⟨results, w⟩, hall⟩ : ∃ all, s.generateAll (s.createProject g v workdir p).volume
        (p.root workdir) p.requests = all := ⟨_, rfl⟩
    obtain ⟨problem, hresult, hvolume⟩ := runPlan_eq hcreated rfl hall
    obtain rfl := Except.ok.inj (h.symm.trans hresult)
    exact ⟨results, w, rfl, hall, rfl, rfl, hvolume⟩

/-- A collected plan is carried out in an empty project, and every request succeeds. A specifier of a
script in the project that begins with a dot then leads to a file, unless it is that of the list of
screens in the navigator of a project without screens, which leads nowhere. -/
theorem runPlan_resolves (hp : p.Collected asked {})
    (hmade : Volume.Made (createProject { features, tools } g v workdir p).volume u (p.root workdir)
      dir)
    (hresult : (runPlan { features, tools } g v workdir p).result = .ok summary)
    (haccepted : summary.rejected = []) (hsuccess : ∀ o ∈ summary.outcomes, o.isSuccess = true) :
    ∃ w, (generateAll { features, tools } (createProject { features, tools } g v workdir p).volume
        (p.root workdir) p.requests).2 = w ∧
      (runPlan { features, tools } g v workdir p).volume =
        (installPackages { features, tools } g w (p.root workdir)).volume ∧
      ∀ file c, w.disk.get? (dir ++ file) = some (.file c) → ∃ t, c = .text t ∧
        ∀ specifier ∈ Script.specifiers t, Specifier.IsRelative specifier →
          (Specifier.Resolves w.disk (dir ++ file) specifier ↔
            ¬((∀ r ∈ p.requests, r.archetype ≠ .screen) ∧
              file = ["src", "Navigation", "AppNavigation.jsx"] ∧
              specifier = "./screens/StackScreens")) := by
  obtain ⟨parts, rfl, hparts⟩ := hp.exists_parts
  obtain ⟨results, w, -, hall, houtcomes, hrejected, hvolume⟩ := exists_generateAll_of_runPlan hresult
  rw [houtcomes] at hsuccess
  rw [hrejected] at haccepted
  refine ⟨w, by rw [hall], hvolume, fun file c hc => ?_⟩
  rw [generateAll_default] at hall
  have hfiles : ∀ file c, w.disk.get? (dir ++ file) = some (.file c) ↔ ∃ loc t,
      file = "src" :: loc ∧ contents (parts.plan {}).requests loc = some t ∧ c = .text t :=
    fun file c => hparts.get?_eq_iff hmade hall haccepted hsuccess
  obtain ⟨-, t, -, -, rfl⟩ := (hfiles file c).mp hc
  refine ⟨t, rfl, fun specifier hspecifier hrelative => ?_⟩
  rw [PlanParts.forall_archetype_ne_screen_iff]
  exact hparts.resolves_iff_of_mem hfiles hc hspecifier hrelative

/-- The navigator of a shop without screens names a list that is not there. -/
theorem runPlan_resolves_shop :
    (Plan.project "shop" [] false none {}).Collected {} {} ∧
    ∃ (summary : RunSummary) (w : Volume) (t : String),
      (runPlan {} (fun _ v => ⟨.ok (), v, {}⟩) ⟨⟨[]⟩, []⟩ ⟨".", []⟩
        (.project "shop" [] false none {})).result = .ok summary ∧
      summary.rejected = [] ∧ (∀ o ∈ summary.outcomes, o.isSuccess = true) ∧
      (runPlan {} (fun _ v => ⟨.ok (), v, {}⟩) ⟨⟨[]⟩, []⟩ ⟨".", []⟩
        (.project "shop" [] false none {})).volume = w ∧
      w.disk.get? ["shop", "src", "Navigation", "AppNavigation.jsx"] = some (.file (.text t)) ∧
      "./screens/StackScreens" ∈ Script.specifiers t ∧
      ¬Specifier.Resolves w.disk ["shop", "src", "Navigation", "AppNavigation.jsx"]
        "./screens/StackScreens" := by
  have hcollected : (Plan.project "shop" [] false none {}).Collected {} {} :=
    .inl ⟨["shop", "n", "n", "n"], _, rfl, rfl⟩
  have hparts : (PlanParts.mk "shop" [] false none).IsChecked :=
    ⟨⟨"shop", rfl⟩, fun name hname => (by cases hname), .nil, fun hlogin => (by cases hlogin),
      fun url hurl => (by cases hurl)⟩
  have hroot : (Plan.project "shop" [] false none {}).root ⟨".", []⟩ =
      Path.extend ⟨".", []⟩ ["shop"] := by
    decide
  have hfollows : Follows ⟨".", []⟩ ["shop"] :=
    ⟨fun s hs => List.mem_singleton.mp hs ▸ (by decide : IsName "shop"), by decide⟩
  obtain ⟨u, hmade, -⟩ := made_here.exists_extend hfollows (List.cons_ne_nil _ _)
  rw [← hroot] at hmade
  obtain ⟨w, hfresh⟩ := exists_fresh hmade (by decide)
  have hshort : ∀ r ∈ (Plan.project "shop" [] false none {}).requests, r.IsShort := by
    intro r hr parameter hparameter name hname
    obtain rfl := List.mem_singleton.mp hr
    rcases List.mem_cons.mp hparameter with rfl | hscreen
    · cases hname
    · obtain rfl := List.mem_singleton.mp hscreen
      cases hname
  obtain ⟨x, hall, hcarried⟩ := hparts.isCarriedOut hfresh.toBegun
    (fun r hr => hfresh.reaches (hshort r hr)) none
  have hget : x.disk.get? ["shop", "src", "Navigation", "AppNavigation.jsx"] = some (.file (.text
      (Skeleton.text
        (Skeleton.navigator "AppNavigation" "stackScreens" "./screens/StackScreens")))) := by
    refine (hparts.get?_eq_iff hmade hall (outcomesOf_map _).2 ?_).mpr
      ⟨["Navigation", "AppNavigation.jsx"], _, rfl,
        hparts.contents_eq_some_iff.mpr ⟨_, .appNavigation, rfl⟩, rfl⟩
    rw [(outcomesOf_map _).1]
    exact fun o ho => (hcarried.success o ho).1
  rw [← generateAll_default {} {}] at hall
  obtain ⟨problem, hresult, hvolume⟩ := @runPlan_eq {} (fun _ v => ⟨.ok (), v, {}⟩) ⟨⟨[]⟩, []⟩
    ⟨".", []⟩ (.project "shop" [] false none {}) _ _ _ rfl rfl hall
  rw [(outcomesOf_map _).1, (outcomesOf_map _).2] at hresult
  have hsuccess : ∀ o ∈ outcomesIn ((Plan.project "shop" [] false none {}).root ⟨".", []⟩)
      (Plan.project "shop" [] false none {}).requests, o.isSuccess = true :=
    fun o ho => (hcarried.success o ho).1
  obtain ⟨y, hy, hinstalled, hresolves⟩ := @runPlan_resolves {} {} {} (fun _ v => ⟨.ok (), v, {}⟩)
    ⟨⟨[]⟩, []⟩ u ⟨".", []⟩ _ ["shop"] _ hcollected hmade hresult rfl hsuccess
  obtain rfl : x = y := (congrArg Prod.snd hall).symm.trans hy
  have hnames : "./screens/StackScreens" ∈ Script.specifiers (Skeleton.text
      (Skeleton.navigator "AppNavigation" "stackScreens" "./screens/StackScreens")) := by
    rw [(Script.names_navigator (.of_chars rfl) (.of_chars rfl) (.of_chars rfl)).specifiers_text]
    exact List.mem_cons_of_mem _ (List.mem_cons_of_mem _ List.mem_cons_self)
  obtain ⟨t, ht, hall⟩ := hresolves ["src", "Navigation", "AppNavigation.jsx"] _ hget
  obtain rfl := Content.text.inj ht
  refine ⟨hcollected, _, x, _, hresult, rfl, hsuccess, hinstalled, hget, hnames, fun hfound => ?_⟩
  exact (hall _ hnames (by decide)).mp hfound ⟨by decide, rfl, rfl⟩

end Settings

end AppScaffold
