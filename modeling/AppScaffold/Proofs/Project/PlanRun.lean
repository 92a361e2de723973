import AppScaffold.Proofs.Project.NewProject
import AppScaffold.Proofs.Project.PlanFiles
import AppScaffold.Run

/-!
# Carrying out a collected plan

The plan of a dialogue or of a brief is made for a new project. Carried out in a directory that is
empty, or that can be made, all its requests succeed and none of them finds a file of another one.
-/

namespace AppScaffold

open Disk Volume

/-- The files that were made. -/
def createdPaths (outcomes : List Outcome) : List Path := outcomes.flatMap fun o => o.report.created

/-- The registries that were written. -/
def patchedPaths (outcomes : List Outcome) : List Path :=
  outcomes.filterMap fun o =>
    match o.patch with
    | some (.patched _ path _) => some path
    | _ => none

/-- The directory of the project of a plan. -/
def Plan.root (p : Plan) (workdir : Path) : Path := workdir.join (.ofText p.projectName)

namespace Settings

variable {s : Settings} {g : Gateway} {v : Volume} {workdir root : Path} {p : Plan}

/-- The features and the tools do not matter to requests. -/
theorem generateAll_default (features : Features) (tools : Tools) (v : Volume) (root : Path)
    (rs : List Request) :
    generateAll { features, tools } v root rs = generateAll {} v root rs := by
  induction rs generalizing v with
  | nil => rfl
  | cons r rs ih =>
    have hfirst : generate { features, tools } v root r = generate {} v root r := rfl
    rw [generateAll, generateAll, hfirst]
    simp only [ih]

/-- Each request has a result. -/
theorem length_generateAll (s : Settings) (v : Volume) (root : Path) (rs : List Request) :
    (s.generateAll v root rs).1.length = rs.length := by
  induction rs generalizing v with
  | nil => rfl
  | cons r rs ih => rw [generateAll, List.length_cons, List.length_cons, ih]

/-- The second of two requests is made where the first one has been made. -/
theorem mem_generateAll_pair {q r : Request} :
    (r.archetype, (s.generate (s.generate v root q).2 root r).1) ∈ (s.generateAll v root [q, r]).1 := by
  simp only [generateAll, List.mem_cons, true_or, or_true]

/-- A plan whose project was created is carried out request by request. -/
theorem runPlan_eq {u w : Volume} {results : List (Archetype × Except Problem Outcome)}
    (h : (s.createProject g v workdir p).result = .ok ())
    (hu : (s.createProject g v workdir p).volume = u)
    (hall : s.generateAll u (p.root workdir) p.requests = (results, w)) :
    ∃ problem, (s.runPlan g v workdir p).result =
        .ok ⟨p.root workdir, outcomesOf results, refusalsOf results, problem⟩ ∧
      (s.runPlan g v workdir p).volume = (s.installPackages g w (p.root workdir)).volume := by
  unfold Plan.root at hall ⊢
  unfold runPlan
  simp only [h, hu, hall]
  exact ⟨_, rfl, trivial⟩

end Settings

/-- Accepted requests have outcomes and no refusals. -/
theorem outcomesOf_map (outcomes : List Outcome) :
    outcomesOf (outcomes.map fun o => (o.archetype, .ok o)) = outcomes ∧
      refusalsOf (outcomes.map fun o => (o.archetype, .ok o)) = [] := by
  constructor
  · simp [outcomesOf, List.filterMap_map, Except.toOption]
  · simp [refusalsOf, List.filterMap_map]

/-- A name of an entry is a segment of its own. -/
theorem IsName.isSegment {s : String} (h : IsName s) : IsSegment s := by
  have hstep := h.step
  unfold segmentStep at hstep
  rw [isSegment_iff]
  split_ifs at hstep with hempty hone htwo
  · cases hstep
  · cases hstep
  · exact ⟨hempty, hone, htwo⟩

/-- Paths to different places in the sources are not alike. -/
theorem Path.alike_join_src (root : Path) {loc loc' : Location} (h : ∀ s ∈ loc, IsName s)
    (h' : ∀ s ∈ loc', IsName s) (hne : loc ≠ loc') :
    (root.join ⟨"src", loc⟩).alike (root.join ⟨"src", loc'⟩) = false := by
  have hsrc : IsSegment "src" := by decide
  have hcomponents : ∀ loc : Location, (∀ s ∈ loc, IsName s) →
      (root.join ⟨"src", loc⟩).components = root.components ++ .name "src" :: loc.map .name := by
    intro loc hloc
    rw [components_join (q := ⟨"src", loc⟩) root hsrc, components_of_isSegment (p := ⟨"src", loc⟩) hsrc,
      filterMap_of_isSegment fun s hs => (hloc s hs).isSegment]
  rw [alike, hcomponents loc h, hcomponents loc' h', beq_eq_false_iff_ne, ne_eq,
    List.append_cancel_left_eq, List.cons.injEq]
  intro hsame
  exact hne (List.map_injective_iff.mpr (fun s t hst => Component.name.inj hst) hsame.2)

/-- What becomes of requests in a new project, one after the other. -/
def outcomesIn (root : Path) (rs : List Request) : List Outcome :=
  rs.mapIdx fun i r => outcomeAfter root (rs.take i) r

section Outcomes

variable {root : Path} {rs : List Request} {r : Request} {o : Outcome} {i : Nat}

/-- Each outcome is that of a request after those before it. -/
theorem exists_of_mem_outcomesIn (h : o ∈ outcomesIn root rs) :
    ∃ i r, rs[i]? = some r ∧ o = outcomeAfter root (rs.take i) r := by
  obtain ⟨i, hi, rfl⟩ := List.mem_mapIdx.mp h
  exact ⟨i, rs[i], List.getElem?_eq_getElem hi, rfl⟩

/-- The outcomes are those of the requests in order. -/
theorem map_archetype_outcomesIn (root : Path) (rs : List Request) :
    (outcomesIn root rs).map Outcome.archetype = rs.map Request.archetype := by
  refine List.ext_getElem? fun i => ?_
  rw [outcomesIn, List.getElem?_map, List.getElem?_map, List.getElem?_mapIdx]
  cases rs[i]? with
  | none => rfl
  | some r => rfl

/-- A request that shares no file with those before it makes all its files. -/
theorem report_outcomeAfter (h : ((rs.flatMap Request.files).map Prod.fst).Nodup)
    (hr : rs[i]? = some r) :
    (outcomeAfter root (rs.take i) r).report =
      { created := (r.files.map Prod.fst).map (root.join ⟨"src", ·⟩), skipped := [] } := by
  have hnone : ∀ loc ∈ r.files.map Prod.fst, firstFile (rs.take i) loc = none := by
    obtain ⟨hlt, rfl⟩ := List.getElem?_eq_some_iff.mp hr
    rw [← List.take_append_drop i rs, List.drop_eq_getElem_cons hlt, List.flatMap_append,
      List.map_append, List.flatMap_cons, List.map_append] at h
    have hapart := (List.nodup_append.mp h).2.2
    intro loc hloc
    rw [firstFile, List.lookup_eq_none_iff]
    intro file hfile
    have hne := hapart file.1 (List.mem_map_of_mem hfile) loc (List.mem_append_left _ hloc)
    simpa using Ne.symm hne
  have hall : (r.files.map Prod.fst).filter (fun loc => (firstFile (rs.take i) loc).isNone) =
      r.files.map Prod.fst := by
    rw [List.filter_eq_self]
    intro loc hloc
    rw [hnone loc hloc]
    rfl
  have hnil : (r.files.map Prod.fst).filter (fun loc => (firstFile (rs.take i) loc).isSome) = [] := by
    rw [List.filter_eq_nil_iff]
    intro loc hloc
    rw [hnone loc hloc]
    decide
  rw [outcomeAfter]
  simp only [hall, hnil, List.map_nil]

/-- Requests that share no file succeed and skip nothing. -/
theorem isSuccess_of_mem_outcomesIn (h : ((rs.flatMap Request.files).map Prod.fst).Nodup)
    (ho : o ∈ outcomesIn root rs) : o.isSuccess = true ∧ o.report.skipped = [] := by
  obtain ⟨i, r, hr, rfl⟩ := exists_of_mem_outcomesIn ho
  rw [report_outcomeAfter h hr]
  exact ⟨isSuccess_outcomeAfter root _ r, rfl⟩

/-- All files of requests that share none are made. -/
theorem createdPaths_outcomesIn (h : ((rs.flatMap Request.files).map Prod.fst).Nodup) :
    createdPaths (outcomesIn root rs) =
      ((rs.flatMap Request.files).map Prod.fst).map (root.join ⟨"src", ·⟩) := by
  have hreports : (outcomesIn root rs).map (fun o => o.report.created) =
      rs.map fun r => (r.files.map Prod.fst).map (root.join ⟨"src", ·⟩) := by
    refine List.ext_getElem? fun i => ?_
    rw [outcomesIn, List.getElem?_map, List.getElem?_map, List.getElem?_mapIdx]
    cases hr : rs[i]? with
    | none => rfl
    | some r => rw [Option.map_some, Option.map_some, Option.map_some, report_outcomeAfter h hr]
  rw [createdPaths, List.flatMap_def, hreports, ← List.flatMap_def, List.map_flatMap,
    List.map_flatMap]

/-- The files that requests make can be reached. -/
theorem isName_of_mem_files (hrs : ∀ r ∈ rs, r.Reaches root) {loc : Location}
    (hloc : loc ∈ (rs.flatMap Request.files).map Prod.fst) : ∀ s ∈ loc, IsName s := by
  rw [List.map_flatMap] at hloc
  obtain ⟨r, hr, hloc⟩ := List.mem_flatMap.mp hloc
  exact ((hrs r hr).files loc hloc).proper

/-- Requests that share no file make different files. -/
theorem pairwise_createdPaths (h : ((rs.flatMap Request.files).map Prod.fst).Nodup)
    (hrs : ∀ r ∈ rs, r.Reaches root) :
    (createdPaths (outcomesIn root rs)).Pairwise fun a b => a.alike b = false := by
  rw [createdPaths_outcomesIn h, List.pairwise_map]
  exact h.imp_of_mem fun ha hb hne =>
    Path.alike_join_src root (isName_of_mem_files hrs ha) (isName_of_mem_files hrs hb) hne

/-- Requests that share no file make none that is a registry. -/
theorem alike_createdPaths (h : ((rs.flatMap Request.files).map Prod.fst).Nodup)
    (hrs : ∀ r ∈ rs, r.Reaches root) :
    ∀ a ∈ createdPaths (outcomesIn root rs), ∀ b ∈ patchedPaths (outcomesIn root rs),
      a.alike b = false := by
  intro a ha b hb
  rw [createdPaths_outcomesIn h] at ha
  obtain ⟨loc, hloc, rfl⟩ := List.mem_map.mp ha
  obtain ⟨o, ho, hpatch⟩ := List.mem_filterMap.mp hb
  obtain ⟨i, r, hr, rfl⟩ := exists_of_mem_outcomesIn ho
  rw [outcomeAfter] at hpatch
  cases hreg : r.registration with
  | none =>
    rw [hreg] at hpatch
    cases hpatch
  | some e =>
    rw [hreg] at hpatch
    obtain rfl := Option.some.inj hpatch
    have hregistry := (hrs r (List.mem_of_getElem? hr)).registry e hreg
    obtain ⟨file, hfile, rfl⟩ := List.mem_map.mp hloc
    obtain ⟨q, -, hq⟩ := List.mem_flatMap.mp hfile
    exact Path.alike_join_src root (isName_of_mem_files hrs hloc) hregistry.proper
      (Request.location_ne_of_mem_files hq e.aggregator)

end Outcomes

/-- The results of accepted requests are their outcomes. -/
theorem Begun.generateAll_outcomes {v w : Volume} {root : Path} {src : Location} {rs : List Request}
    (hf : Begun v root w src) (hrs : ∀ r ∈ rs, r.Reaches root) (hne : rs ≠ [])
    (hok : ∀ result ∈ (Settings.generateAll {} v root rs).1, ∃ o, result.2 = .ok o) :
    (Settings.generateAll {} v root rs).1 =
      (outcomesIn root rs).map fun o => (o.archetype, .ok o) := by
  have hresults := (hf.generateAll_shows hrs hne hok).1
  have hlength := Settings.length_generateAll {} v root rs
  refine List.ext_getElem? fun i => ?_
  rw [outcomesIn, List.getElem?_map, List.getElem?_mapIdx]
  cases hr : rs[i]? with
  | none =>
    rw [List.getElem?_eq_none_iff] at hr
    rw [List.getElem?_eq_none (by omega)]
    rfl
  | some r =>
    rw [hresults i r hr]
    rfl

/-- A file is where requests have made or written one, and nowhere else. -/
theorem get?_of_isSite {w x : Volume} {src loc : Location} {rs : List Request}
    (h : Shows w src (contents rs) x) (hloc : IsSite loc) :
    x.disk.get? (src ++ loc) = (contents rs loc).map fun t => .file (.text t) := by
  cases hfile : contents rs loc with
  | some t => exact h.file loc t hfile
  | none =>
    have hne : loc ≠ [] := by
      obtain ⟨dirs, file, rfl, -⟩ := hloc.split
      simp
    refine h.free loc hne fun names => ?_
    by_cases hnames : names = []
    · rw [hnames, List.append_nil, hfile]
    · exact (IsSite.admits (fun _ => isSite_of_contents_ne_none) hloc).below names hnames

/-- A run has made a new project: `w` is the disk before packages are installed, with the project at
`dir`. -/
structure PlanParts.IsCarriedOut (parts : PlanParts) (summary : RunSummary) (dir : Location)
    (w : Volume) : Prop where
  /-- No request was refused. -/
  accepted : summary.rejected = []
  /-- There is an outcome for each request. -/
  outcomes : summary.outcomes.map Outcome.archetype =
    (parts.plan {}).requests.map Request.archetype
  /-- All requests have succeeded, and nothing was skipped. -/
  success : ∀ o ∈ summary.outcomes, o.isSuccess = true ∧ o.report.skipped = []
  /-- The files that were made are different. -/
  created : (createdPaths summary.outcomes).Pairwise fun a b => a.alike b = false
  /-- None of them is a registry that was written. -/
  patched : ∀ a ∈ createdPaths summary.outcomes, ∀ b ∈ patchedPaths summary.outcomes,
    a.alike b = false
  /-- The list of the main stack has the screens in order; it is there if there are any. -/
  screens : w.disk.get? (dir ++ ["src", "Navigation", "screens", "StackScreens.jsx"]) =
    if parts.screens = [] then none
    else some (.file (.text (Skeleton.text (Skeleton.screenList "stackScreens" parts.screens))))
  /-- The list before sign-in has the login screen; it is there if a login was chosen. -/
  logins : w.disk.get? (dir ++ ["src", "Navigation", "screens", "LoginScreens.jsx"]) =
    if parts.login then
      some (.file (.text (Skeleton.text (Skeleton.screenList "loginScreens" [loginScreenName]))))
    else none
  /-- There is a file for the base address if there is one. -/
  address : w.disk.get? (dir ++ ["src", "Api", "api.config.js"]) ≠ none ↔ parts.address ≠ none

/-- The requests of a plan are accepted in a new project, one after the other, and settle what is in it. -/
theorem PlanParts.IsChecked.exists_generateAll_eq {parts : PlanParts} (h : parts.IsChecked) {v w : Volume}
    {root : Path} {src : Location} (hf : Begun v root w src)
    (hreaches : ∀ r ∈ (parts.plan {}).requests, r.Reaches root) :
    ∃ x, Settings.generateAll {} v root (parts.plan {}).requests =
        ((outcomesIn root (parts.plan {}).requests).map fun o => (o.archetype, .ok o), x) ∧
      Shows w src (contents (parts.plan {}).requests) x := by
  have hne : (parts.plan {}).requests ≠ [] := by simp [PlanParts.plan, Plan.project]
  have hok := Settings.generateAll_accepts {} (h.prepare root) v
  exact ⟨_, Prod.ext (hf.generateAll_outcomes hreaches hne hok) rfl,
    (hf.generateAll_shows hreaches hne hok).2⟩

/-- The requests of a plan make a new project. -/
theorem PlanParts.IsChecked.isCarriedOut {parts : PlanParts} (h : parts.IsChecked) {v w : Volume}
    {root : Path} {dir : Location} (hf : Begun v root w (dir ++ ["src"]))
    (hreaches : ∀ r ∈ (parts.plan {}).requests, r.Reaches root) (problem : Option Problem) :
    ∃ x, Settings.generateAll {} v root (parts.plan {}).requests =
        ((outcomesIn root (parts.plan {}).requests).map fun o => (o.archetype, .ok o), x) ∧
      parts.IsCarriedOut ⟨root, outcomesIn root (parts.plan {}).requests, [], problem⟩ dir x := by
  have hnodup := h.nodup_files
  obtain ⟨x, hall, hshows⟩ := h.exists_generateAll_eq hf hreaches
  refine ⟨x, hall, ?_⟩
  have hget : ∀ loc, IsSite loc → x.disk.get? (dir ++ "src" :: loc) =
      (contents (parts.plan {}).requests loc).map fun t => .file (.text t) := by
    intro loc hloc
    rw [← get?_of_isSite hshows hloc, List.append_assoc]
    rfl
  have hscreens := hget Aggregator.screenRegistry.location (isSite_three (by decide) (by decide)
    (by decide))
  have hlogins := hget Aggregator.loginRegistry.location (isSite_three (by decide) (by decide)
    (by decide))
  have haddress := hget ["Api", "api.config.js"] (isSite_two (by decide) (by decide))
  rw [h.contents_screenRegistry] at hscreens
  rw [h.contents_loginRegistry] at hlogins
  refine ⟨rfl, map_archetype_outcomesIn _ _, fun o ho => isSuccess_of_mem_outcomesIn hnodup ho,
    pairwise_createdPaths hnodup hreaches, alike_createdPaths hnodup hreaches, hscreens.trans ?_,
    hlogins.trans ?_, ?_⟩
  · split_ifs
    · rfl
    · rfl
  · split_ifs
    · rfl
    · rfl
  · rw [haddress, ← h.contents_address, ne_eq, Option.map_eq_none_iff]

/-- A plan that was found out in a dialogue or read from a brief can be carried out in a directory
that is empty or can be made. All its requests are accepted and succeed, nothing is skipped, the
files are all different, and none of them is a registry. The lists of screens are those of the plan,
and there is a base address if one was given. -/
theorem Settings.runPlan_collected {asked features : Features} {tools : Tools} {p : Plan}
    (hp : p.Collected asked {}) (hshort : ∀ r ∈ p.requests, r.IsShort) {g : Gateway} {v u : Volume}
    {workdir : Path} {dir : Location}
    (hcreated : (createProject { features, tools } g v workdir p).result = .ok ())
    (hmade : Made (createProject { features, tools } g v workdir p).volume u (p.root workdir) dir)
    (hroot : (p.root workdir).text.utf8ByteSize ≤ 3669) :
    ∃ (parts : PlanParts) (summary : RunSummary) (w : Volume), p = parts.plan {} ∧
      (runPlan { features, tools } g v workdir p).result = .ok summary ∧
      (runPlan { features, tools } g v workdir p).volume =
        (installPackages { features, tools } g w (p.root workdir)).volume ∧
      summary.projectRoot = p.root workdir ∧ parts.IsCarriedOut summary dir w := by
  obtain ⟨parts, rfl, hparts⟩ := hp.exists_parts
  obtain ⟨w, hfresh⟩ := exists_fresh hmade hroot
  obtain ⟨x, hall, hcarried⟩ := hparts.isCarriedOut hfresh.toBegun
    (fun r hr => hfresh.reaches (hshort r hr)) none
  rw [← generateAll_default features tools] at hall
  obtain ⟨problem, hresult, hvolume⟩ := runPlan_eq hcreated rfl hall
  rw [(outcomesOf_map _).1, (outcomesOf_map _).2] at hresult
  exact ⟨parts, _, x, rfl, hresult, hvolume, rfl, { hcarried with }⟩

/-- A shop with two screens, a login and a base address is made in a directory that is not there, and so
is one without any of these, which has no list of screens then. -/
theorem runPlan_collected_shop :
    (Plan.project "shop" ["Home", "Cart"] true (some "api.shop.io") {}).Collected {} {} ∧
    (Plan.project "shop" [] false none {}).Collected {} {} ∧
    Volume.exists? ⟨⟨[]⟩, []⟩ ⟨".", ["shop"]⟩ = false ∧
    (∃ (parts : PlanParts) (summary : RunSummary) (w : Volume),
      .project "shop" ["Home", "Cart"] true (some "api.shop.io") {} = parts.plan {} ∧
      (Settings.runPlan {} (fun _ v => ⟨.ok (), v, {}⟩) ⟨⟨[]⟩, []⟩ ⟨".", []⟩
        (.project "shop" ["Home", "Cart"] true (some "api.shop.io") {})).result = .ok summary ∧
      parts.IsCarriedOut summary ["shop"] w) ∧
    ∃ (parts : PlanParts) (summary : RunSummary) (w : Volume),
      .project "shop" [] false none {} = parts.plan {} ∧
      (Settings.runPlan {} (fun _ v => ⟨.ok (), v, {}⟩) ⟨⟨[]⟩, []⟩ ⟨".", []⟩
        (.project "shop" [] false none {})).result = .ok summary ∧
      parts.IsCarriedOut summary ["shop"] w ∧
      w.disk.get? ["shop", "src", "Navigation", "screens", "StackScreens.jsx"] = none := by
  have hfull : (Plan.project "shop" ["Home", "Cart"] true (some "api.shop.io") {}).Collected
      {} {} := .inl ⟨["shop", "y", "2", "Home", "Cart", "y", "y", "api.shop.io"], _, rfl, rfl⟩
  have hbare : (Plan.project "shop" [] false none {}).Collected {} {} :=
    .inl ⟨["shop", "n", "n", "n"], _, rfl, rfl⟩
  have hname : IsName "shop" := by decide
  have hfollows : Follows ⟨".", []⟩ ["shop"] :=
    ⟨fun s hs => List.mem_singleton.mp hs ▸ hname, by decide⟩
  have hmissing : Volume.exists? ⟨⟨[]⟩, []⟩ ⟨".", ["shop"]⟩ = false := by
    have hfind := (made_here.find?_eq hfollows (List.cons_ne_nil _ _)).1
    have hextend : Path.extend ⟨".", []⟩ ["shop"] = ⟨".", ["shop"]⟩ := rfl
    rw [exists?, ← hextend, hfind]
    rfl
  obtain ⟨u, hmade, -⟩ := made_here.exists_extend hfollows (List.cons_ne_nil _ _)
  have hrun : ∀ p : Plan, p.Collected {} {} → (∀ r ∈ p.requests, r.IsShort) →
      p.root ⟨".", []⟩ = Path.extend ⟨".", []⟩ ["shop"] →
      ∃ (parts : PlanParts) (summary : RunSummary) (w : Volume), p = parts.plan {} ∧
        (Settings.runPlan {} (fun _ v => ⟨.ok (), v, {}⟩) ⟨⟨[]⟩, []⟩ ⟨".", []⟩ p).result =
          .ok summary ∧ parts.IsCarriedOut summary ["shop"] w := by
    intro p hp hshort hroot
    have hlength : (p.root ⟨".", []⟩).text.utf8ByteSize ≤ 3669 := by
      rw [hroot]
      decide
    rw [← hroot] at hmade
    obtain ⟨parts, summary, w, hparts, hresult, -, -, hcarried⟩ :=
      @Settings.runPlan_collected {} {} {} _ hp hshort (fun _ v => ⟨.ok (), v, {}⟩) ⟨⟨[]⟩, []⟩ u
        ⟨".", []⟩ _ rfl hmade hlength
    exact ⟨parts, summary, w, hparts, hresult, hcarried⟩
  refine ⟨hfull, hbare, hmissing, hrun _ hfull (fun r hr => ?_) (by decide), ?_⟩
  · intro parameter hparameter name hname
    simp only [Plan.project, List.map_cons, List.map_nil, if_true, Option.map_some,
      Option.toList_some, List.cons_append, List.nil_append, List.mem_cons, List.not_mem_nil,
      or_false] at hr hparameter
    rcases hr with rfl | rfl | rfl | rfl | rfl
    all_goals rcases hparameter with rfl | rfl
    all_goals cases hname
    all_goals decide
  · obtain ⟨parts, summary, w, hparts, hresult, hcarried⟩ := hrun _ hbare (fun r hr => by
      obtain rfl := List.mem_singleton.mp hr
      intro parameter hparameter name hname
      rcases List.mem_cons.mp hparameter with rfl | hscreen
      · cases hname
      · obtain rfl := List.mem_singleton.mp hscreen
        cases hname) (by decide)
    have hnone : parts.screens = [] := by
      have hlength := congrArg (fun p : Plan => p.requests.length) hparts
      simp only [PlanParts.plan, Plan.project, List.length_append, List.length_map, List.length_cons,
        List.length_nil, Bool.false_eq_true, if_false, Option.map_none, Option.toList_none] at hlength
      exact List.eq_nil_of_length_eq_zero (by omega)
    have hscreens := hcarried.screens
    rw [if_pos hnone] at hscreens
    exact ⟨parts, summary, w, hparts, hresult, hcarried, hscreens⟩

/-- Where a screen cannot be made the run of a plan with that screen goes on, and fails. -/
theorem Settings.exists_failure {g : Gateway} {v : Volume} {workdir root : Path} {project : String}
    (hcreated : (createProject {} g v workdir (.project project ["Home"] false none {})).result =
      .ok ())
    (hroot : (Plan.project project ["Home"] false none {}).root workdir = root)
    (h : ∀ u, ∃ o, (generate {} u root (Request.screen "Home")).1 = .ok o ∧
      o.materializeProblem ≠ none) :
    ∃ summary : RunSummary,
      (runPlan {} g v workdir (.project project ["Home"] false none {})).result = .ok summary ∧
      ∃ o ∈ summary.outcomes, o.isSuccess = false := by
  obtain ⟨u, hu⟩ : ∃ u, (createProject {} g v workdir
      (.project project ["Home"] false none {})).volume = u := ⟨_, rfl⟩
  obtain ⟨⟨results, w⟩, hall⟩ : ∃ all, generateAll {} u root
      [Request.navigation false {}, Request.screen "Home"] = all := ⟨_, rfl⟩
  obtain ⟨o, ho, hproblem⟩ := h (generate {} u root (Request.navigation false {})).2
  have hmem : ((Request.screen "Home").archetype, Except.ok o) ∈ results := by
    have hpair : ((Request.screen "Home").archetype, Except.ok o) ∈
        (generateAll {} u root [Request.navigation false {}, Request.screen "Home"]).1 := by
      rw [← ho]
      exact mem_generateAll_pair
    rwa [hall] at hpair
  have hrequests : (Plan.project project ["Home"] false none {}).requests =
      [Request.navigation false {}, Request.screen "Home"] := rfl
  rw [← hroot, ← hrequests] at hall
  obtain ⟨problem, hresult, -⟩ := runPlan_eq hcreated hu hall
  have houtcome : o ∈ outcomesOf results := List.mem_filterMap.mpr ⟨_, hmem, rfl⟩
  have hfailure : o.isSuccess = false := by simp [Outcome.isSuccess, hproblem]
  exact ⟨_, hresult, o, houtcome, hfailure⟩

/-- Where the name of the root is too long nothing is found below it, whatever is on the disk. -/
theorem exists_fault_of_long_name (d : Disk) {name : String} (h : nameLimit < name.utf8ByteSize)
    (hsegment : IsSegment name) (names : List String) :
    ∃ e, e ≠ .notFound ∧ ∀ (cwd : Location) (follow : Bool) (todo : List Step),
      d.locate cwd follow ⟨".", name :: names⟩ (bareSteps ⟨".", name :: names⟩ ++ todo) =
        .error e := by
  have hsteps : ∀ todo, bareSteps ⟨".", name :: names⟩ ++ todo =
      .stay :: .name name :: (names.filterMap segmentStep ++ todo) := by
    intro todo
    have hdot : segmentStep "." = some .stay := by decide
    have hname : segmentStep name = some (.name name) := by
      obtain ⟨hempty, hone, htwo⟩ := isSegment_iff.mp hsegment
      rw [segmentStep, if_neg hempty, if_neg hone, if_neg htwo]
    rw [bareSteps, List.filterMap_cons_some hdot, List.filterMap_cons_some hname]
    rfl
  have hne : (⟨".", name :: names⟩ : Path) ≠ Path.empty := fun hempty =>
    absurd (congrArg Path.first hempty) (show "." ≠ "" by decide)
  have hwalk : ∀ (cur : Location) (follow : Bool) (todo : List Step),
      d.walk follow linkLimit cur (.stay :: .name name :: (names.filterMap segmentStep ++ todo)) =
        .error .nameTooLong := by
    intro cur follow todo
    rw [walk, walk.eq_def]
    exact if_pos h
  cases hadmissible : admissible ⟨".", name :: names⟩ with
  | ok =>
    refine ⟨.nameTooLong, by decide, fun cwd follow todo => ?_⟩
    rw [locate, hadmissible, hsteps]
    exact hwalk _ follow todo
  | error e =>
    refine ⟨e, ?_, fun cwd follow todo => ?_⟩
    · rintro rfl
      unfold admissible at hadmissible
      split_ifs at hadmissible
      · cases hadmissible
      · cases hadmissible
    · rw [locate, hadmissible]

section LongName

variable {name : String}

/-- There is no directory with a name that is too long. -/
theorem exists?_of_long_name (v : Volume) (h : nameLimit < name.utf8ByteSize)
    (hsegment : IsSegment name) : v.exists? ⟨".", [name]⟩ = false := by
  obtain ⟨e, -, hlocate⟩ := exists_fault_of_long_name v.disk h hsegment []
  have hfind : v.find? ⟨".", [name]⟩ = .error e := by
    rw [find?, Disk.steps, hlocate]
  rw [exists?, hfind]
  rfl

/-- Where the name of the root is too long no screen can be made, whatever is on the disk. -/
theorem exists_problem_of_long_name (v : Volume) (h : nameLimit < name.utf8ByteSize)
    (hsegment : IsSegment name) :
    ∃ o, (Settings.generate {} v ⟨".", [name]⟩ (Request.screen "Home")).1 = .ok o ∧
      o.materializeProblem ≠ none := by
  obtain ⟨e, he, hlocate⟩ := exists_fault_of_long_name v.disk h hsegment ["src", "Screens", "Home"]
  have hsources : (sources ⟨".", [name]⟩).extend ["Screens", "Home"] =
      ⟨".", [name, "src", "Screens", "Home"]⟩ := by
    have htrimmed : Path.IsTrimmed ⟨".", [name]⟩ := by
      refine ⟨fun s hs => ?_, fun hnil => by cases hnil⟩
      obtain rfl := Option.some.inj hs
      obtain ⟨hempty, hone, -⟩ := isSegment_iff.mp hsegment
      simp [Path.idle, hempty, hone]
    rw [sources, htrimmed.join_eq (by decide)]
    rfl
  have htrimmed := (Path.isTrimmed_sources ⟨".", [name]⟩).extend isName_of_home
  refine exists_problem (mkdirAll_of_error htrimmed he fun follow => ?_)
  rw [hsources, ← hlocate v.cwd follow [], List.append_nil]

/-- The letters of a name may be repeated as often as one likes. -/
theorem projectName_of_letters (h : ∀ c ∈ name.toList, c = 'a') (hne : 'a' ∈ name.toList) :
    Answer.projectName name = .ok name := by
  have htrim : Text.trim name = name := Text.trim_of_notMem fun c hc => by
    rw [h c hc]
    decide
  have hplain : ¬name.toList.any Answer.breaksProjectName = true := by
    rw [List.any_eq_true]
    rintro ⟨c, hc, hbreaks⟩
    rw [h c hc] at hbreaks
    exact absurd hbreaks (by decide)
  obtain ⟨hempty, hone, htwo⟩ := isSegment_iff.mp (isSegment_of_mem hne (by decide))
  rw [Answer.projectName, htrim]
  simp [hempty, hone, htwo, hplain]

end LongName

/-- A project in a path of dots has a path that ends with its name. -/
theorem isTrimmed_dots_shop (n : Nat) :
    (Path.extend ⟨".", List.replicate n "."⟩ ["shop"]).IsTrimmed := by
  refine ⟨fun s hs => ?_, fun hnil => by simp [Path.extend] at hnil⟩
  rw [Path.extend, List.getLast?_concat, Option.some.injEq] at hs
  rw [← hs]
  decide

/-- The directory of a project in a path of dots is missing from an empty disk. -/
theorem find?_dots_shop {n : Nat} (hn : 2 * n + 6 < pathLimit) :
    Volume.find? ⟨⟨[]⟩, []⟩ (Path.extend ⟨".", List.replicate n "."⟩ ["shop"]) =
      .error .notFound := by
  have hadmissible : admissible (Path.extend ⟨".", List.replicate n "."⟩ ["shop"]) = .ok () := by
    have hwidth : width ["shop"] = 5 := by decide
    exact admissible_dots (List.forall_mem_singleton.mpr (ne_zero_of_all (by decide))) (by omega)
  have hsteps : Disk.steps (Path.extend ⟨".", List.replicate n "."⟩ ["shop"]) =
      List.replicate (n + 1) .stay ++ [.name "shop"] := by
    have hname : ["shop"].filterMap segmentStep = [.name "shop"] := rfl
    rw [(isTrimmed_dots_shop n).steps_eq, ← bareSteps_dots, bareSteps, Path.extend,
      ← List.cons_append, List.filterMap_append, hname]
    rfl
  obtain ⟨links, hwalk⟩ := walk_append (walk_stay ⟨[]⟩ true linkLimit [] (n + 1)) rfl
    (List.cons_ne_nil (.name "shop") []) true
  have hfree : Disk.walk ⟨[]⟩ true links [] [.name "shop"] = .ok (.free [] "shop" false) := by
    rw [walk.eq_def]
    rfl
  have habsolute : Path.isAbsolute (Path.extend ⟨".", List.replicate n "."⟩ ["shop"]) = false := rfl
  rw [find?, locate, hadmissible, hsteps, habsolute]
  simp only [Bool.false_eq_true, if_false, hwalk, hfree]

/-- In a path of dots that is long enough there is no room for a screen. -/
theorem size_sources_dots_shop {n : Nat} (hn : pathLimit ≤ 2 * n + 23) :
    pathLimit ≤
      (sources (Path.extend ⟨".", List.replicate n "."⟩ ["shop"])).text.utf8ByteSize + 13 := by
  have hshop : width ["shop"] = 5 := by decide
  have hsrc : width ["src"] = 4 := by decide
  rw [sources, (isTrimmed_dots_shop n).join_eq (by decide), Path.utf8ByteSize_text_extend,
    Path.utf8ByteSize_text_extend, utf8ByteSize_dots, hshop, hsrc]
  omega

/-- No rule limits the name of a project, but one of 256 octets is too long for a directory: the plan
is found out, and its screen cannot be made. Nor can it be made where the path of the project leaves
no room for it. -/
theorem exists_failure_of_long :
    ((Plan.project (String.ofList (List.replicate 256 'a')) ["Home"] false none {}).Collected {} {} ∧
      Volume.exists? ⟨⟨[]⟩, []⟩ ⟨".", [String.ofList (List.replicate 256 'a')]⟩ = false ∧
      ∃ summary : RunSummary,
        (Settings.runPlan {} (fun _ v => ⟨.ok (), v, {}⟩) ⟨⟨[]⟩, []⟩ ⟨".", []⟩
          (.project (String.ofList (List.replicate 256 'a')) ["Home"] false none {})).result =
            .ok summary ∧
        ∃ o ∈ summary.outcomes, o.isSuccess = false) ∧
    (Plan.project "shop" ["Home"] false none {}).Collected {} {} ∧
      Volume.find? ⟨⟨[]⟩, []⟩ (Path.extend ⟨".", List.replicate 2038 "."⟩ ["shop"]) =
        .error .notFound ∧
      ∃ summary : RunSummary,
        (Settings.runPlan {} (fun _ v => ⟨.ok (), v, {}⟩) ⟨⟨[]⟩, []⟩ ⟨".", List.replicate 2038 "."⟩
          (.project "shop" ["Home"] false none {})).result = .ok summary ∧
        ∃ o ∈ summary.outcomes, o.isSuccess = false := by
  constructor
  · have hsize : nameLimit < (String.ofList (List.replicate 256 'a')).utf8ByteSize := by
      decide +kernel
    have hchars : ∀ c ∈ (String.ofList (List.replicate 256 'a')).toList, c = 'a' := by
      rw [String.toList_ofList]
      exact fun c hc => List.eq_of_mem_replicate hc
    have hletter : 'a' ∈ (String.ofList (List.replicate 256 'a')).toList := by
      rw [String.toList_ofList]
      exact List.mem_replicate.mpr ⟨by decide, rfl⟩
    generalize String.ofList (List.replicate 256 'a') = name at hsize hchars hletter ⊢
    have hsegment : IsSegment name := isSegment_of_mem hletter (by decide)
    have hslash : '/' ∉ name.toList := fun hmem => absurd (hchars _ hmem) (by decide)
    have hcollected : (Plan.project name ["Home"] false none {}).Collected {} {} := by
      refine .inr ⟨⟨name, none, ["Home"], none, false⟩, ?_⟩
      rw [Brief.toPlan, projectName_of_letters hchars hletter]
      rfl
    have hroot : (Plan.project name ["Home"] false none {}).root ⟨".", []⟩ = ⟨".", [name]⟩ := by
      have hproject : (Plan.project name ["Home"] false none {}).projectName = name := rfl
      rw [Plan.root, hproject, Path.ofText_of_notMem hslash]
      exact made_here.trimmed.join_eq (isSegment_iff.mp hsegment).1
    exact ⟨hcollected, exists?_of_long_name _ hsize hsegment, Settings.exists_failure rfl hroot
      fun u => exists_problem_of_long_name u hsize hsegment⟩
  · have hcollected : (Plan.project "shop" ["Home"] false none {}).Collected {} {} :=
      .inr ⟨⟨"shop", none, ["Home"], none, false⟩, rfl⟩
    have hroot : (Plan.project "shop" ["Home"] false none {}).root
        ⟨".", List.replicate 2038 "."⟩ = Path.extend ⟨".", List.replicate 2038 "."⟩ ["shop"] := by
      have hproject : Path.ofText (Plan.project "shop" ["Home"] false none {}).projectName =
          ⟨"shop", []⟩ := by decide
      rw [Plan.root, hproject, join_dots _ (by decide)]
    exact ⟨hcollected, find?_dots_shop (by decide), Settings.exists_failure rfl hroot fun u =>
      exists_problem_of_long u (size_sources_dots_shop (by decide))⟩

end AppScaffold
