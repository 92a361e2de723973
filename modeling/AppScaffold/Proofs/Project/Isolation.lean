import AppScaffold.Proofs.Project.Acceptance
import AppScaffold.Proofs.Project.PlanRun
import Mathlib.Data.List.Perm.Basic

/-!
# How the requests of a plan are kept apart

A project is created first, and nothing is made if that fails. Then the requests are carried out one
after the other, each on the disk that those before it have left, and in the end packages are
installed. A request that is refused leaves no trace: the plan without it comes to the same.
-/

namespace AppScaffold

/-- The elements of a list whose places are not marked. -/
def without {α : Type} (dropped : ℕ → Bool) : List α → List α
  | [] => []
  | x :: xs =>
    if dropped 0 then without (fun i => dropped (i + 1)) xs
    else x :: without (fun i => dropped (i + 1)) xs

/-- Elements that count for nothing may be left out. -/
theorem filterMap_without {α β : Type} {f : α → Option β} {dropped : ℕ → Bool} {xs : List α}
    (h : ∀ i x, xs[i]? = some x → dropped i = true → f x = none) :
    (without dropped xs).filterMap f = xs.filterMap f := by
  induction xs generalizing dropped with
  | nil => rfl
  | cons x xs ih =>
    have hrest := @ih (fun i => dropped (i + 1)) fun i y hy hi => h (i + 1) y hy hi
    rw [without]
    split_ifs with hfirst
    · rw [hrest, List.filterMap_cons_none (h 0 x rfl hfirst)]
    · rw [List.filterMap_cons, List.filterMap_cons, hrest]

/-- What has become of each request is an outcome or a refusal. -/
theorem perm_outcomesOf_refusalsOf (results : List (Archetype × Except Problem Outcome))
    (h : ∀ result ∈ results, ∀ o, result.2 = .ok o → o.archetype = result.1) :
    ((outcomesOf results).map Outcome.archetype ++ (refusalsOf results).map Prod.fst).Perm
      (results.map Prod.fst) := by
  induction results with
  | nil => exact .refl []
  | cons result results ih =>
    have hrest := ih fun r hr => h r (List.mem_cons_of_mem _ hr)
    obtain ⟨a, _ | o⟩ := result
    · exact List.perm_middle.trans (hrest.cons a)
    · obtain rfl : o.archetype = a := h _ List.mem_cons_self o rfl
      exact hrest.cons o.archetype

namespace Settings

variable {s : Settings} {g : Gateway} {v : Volume} {workdir root : Path} {p : Plan} {r : Request}

/-- The disk that requests leave, one after the other. -/
def volumeAfter (s : Settings) (v : Volume) (root : Path) (rs : List Request) : Volume :=
  rs.foldl (fun u r => (s.generate u root r).2) v

/-- What becomes of requests, each on the disk that those before it have left. -/
def resultsOf (s : Settings) (v : Volume) (root : Path) (rs : List Request) :
    List (Archetype × Except Problem Outcome) :=
  rs.mapIdx fun i r => (r.archetype, (s.generate (s.volumeAfter v root (rs.take i)) root r).1)

/-- The results of requests begin with that of the first one. -/
theorem resultsOf_cons (s : Settings) (v : Volume) (root : Path) (r : Request) (rs : List Request) :
    s.resultsOf v root (r :: rs) =
      (r.archetype, (s.generate v root r).1) :: s.resultsOf (s.generate v root r).2 root rs := by
  rw [resultsOf, List.mapIdx_cons]
  rfl

/-- The first request is carried out, and then the others. -/
theorem generateAll_cons (s : Settings) (v : Volume) (root : Path) (r : Request)
    (rs : List Request) :
    s.generateAll v root (r :: rs) =
      ((r.archetype, (s.generate v root r).1) :: (s.generateAll (s.generate v root r).2 root rs).1,
        (s.generateAll (s.generate v root r).2 root rs).2) := rfl

/-- The requests are carried out one after the other. -/
theorem generateAll_eq (s : Settings) (v : Volume) (root : Path) (rs : List Request) :
    s.generateAll v root rs = (s.resultsOf v root rs, s.volumeAfter v root rs) := by
  induction rs generalizing v with
  | nil => rfl
  | cons r rs ih =>
    rw [generateAll_cons, resultsOf_cons, ih]
    rfl

/-- Requests that are refused where they stand may be left out: what becomes of the others is the
same. -/
theorem generateAll_without {dropped : ℕ → Bool} {rs : List Request}
    (h : ∀ i r, rs[i]? = some r → dropped i = true →
      ∃ e, (s.generate (s.volumeAfter v root (rs.take i)) root r).1 = .error e) :
    s.generateAll v root (without dropped rs) =
      (without dropped (s.resultsOf v root rs), s.volumeAfter v root rs) := by
  induction rs generalizing v dropped with
  | nil => rfl
  | cons r rs ih =>
    have hrest := @ih (s.generate v root r).2 (fun i => dropped (i + 1))
      fun i q hq hi => h (i + 1) q hq hi
    rw [resultsOf_cons, without, without]
    split_ifs with hfirst
    · -- the refused request has left the disk as it was
      obtain ⟨e, he⟩ := h 0 r rfl hfirst
      have hsame : (s.generate v root r).2 = v := volume_of_refused he
      rw [hsame] at hrest ⊢
      rw [hrest]
      rw [volumeAfter, volumeAfter, List.foldl_cons, hsame]
    · rw [generateAll_cons, hrest]
      rfl

/-- The result of a request is that on the disk that those before it have left. -/
theorem getElem?_resultsOf {rs : List Request} {i : ℕ} (h : rs[i]? = some r) :
    (s.resultsOf v root rs)[i]? =
      some (r.archetype, (s.generate (s.volumeAfter v root (rs.take i)) root r).1) := by
  rw [resultsOf, List.getElem?_mapIdx, h]
  rfl

/-- There is an outcome or a refusal for each request. -/
theorem perm_resultsOf (s : Settings) (v : Volume) (root : Path) (rs : List Request) :
    ((outcomesOf (s.resultsOf v root rs)).map Outcome.archetype ++
      (refusalsOf (s.resultsOf v root rs)).map Prod.fst).Perm (rs.map Request.archetype) := by
  have hkinds : (s.resultsOf v root rs).map Prod.fst = rs.map Request.archetype := by
    induction rs generalizing v with
    | nil => rfl
    | cons r rs ih => rw [resultsOf_cons, List.map_cons, List.map_cons, ih]
  have hresults : ∀ result ∈ s.resultsOf v root rs, ∀ o, result.2 = .ok o →
      o.archetype = result.1 := by
    intro result hmem o ho
    obtain ⟨i, hi, rfl⟩ := List.mem_mapIdx.mp hmem
    exact archetype_of_generate ho
  rw [← hkinds]
  exact perm_outcomesOf_refusalsOf _ hresults

/-- The disk on which the requests of a plan are carried out, if the project can be created. -/
def startOf (s : Settings) (g : Gateway) (v : Volume) (workdir : Path) (p : Plan) : Volume :=
  if s.features.initializeProject then (g (.create p.projectName workdir) v).volume else v

/-- Why a call has failed, if it has. -/
def problemOf : Except Problem Unit → Option Problem
  | .ok () => none
  | .error e => some e

/-- A run that is not stopped: `w` is the disk after the requests. The project has been created if
that is switched on, the requests have had these results, and packages are installed last if that is
switched on. -/
structure Completes (s : Settings) (g : Gateway) (workdir : Path) (p : Plan) (w : Volume)
    (results : List (Archetype × Except Problem Outcome)) (run : Run (Except Problem RunSummary)) :
    Prop where
  /-- The project is created first, and the packages are installed last. -/
  calls : run.calls =
    (if s.features.initializeProject then [.create p.projectName workdir] else []) ++
      if s.features.installPackages then [.install (p.root workdir) s.tools.packages] else []
  /-- The disk is the one that the installation has left. -/
  volume : run.volume = if s.features.installPackages then
    (g (.install (p.root workdir) s.tools.packages) w).volume else w
  /-- There is a summary. -/
  summary : ∃ summary, run.result = .ok summary ∧
    summary.projectRoot = p.root workdir ∧
    -- the results in the order of the plan
    summary.outcomes = outcomesOf results ∧ summary.rejected = refusalsOf results ∧
    -- the installation may fail
    summary.installProblem = if s.features.installPackages then
      problemOf (g (.install (p.root workdir) s.tools.packages) w).result else none

/-- The creation of a project can stop a run. -/
theorem runPlan_of_error {e : Problem} (henabled : s.features.initializeProject = true)
    (h : (g (.create p.projectName workdir) v).result = .error e) :
    s.runPlan g v workdir p = ⟨[.create p.projectName workdir], .error e,
      (g (.create p.projectName workdir) v).volume,
      (g (.create p.projectName workdir) v).console⟩ := by
  unfold runPlan createProject callIf
  simp only [henabled, if_true, h]

/-- Where the project has been created its requests are carried out, and packages are installed. -/
theorem runPlan_of_ok {w : Volume} {results : List (Archetype × Except Problem Outcome)}
    (h : (s.createProject g v workdir p).result = .ok ())
    (hall : s.generateAll (s.createProject g v workdir p).volume (p.root workdir) p.requests =
      (results, w)) :
    s.runPlan g v workdir p =
      ⟨(s.createProject g v workdir p).calls ++ (s.installPackages g w (p.root workdir)).calls,
        .ok ⟨p.root workdir, outcomesOf results, refusalsOf results,
          problemOf (s.installPackages g w (p.root workdir)).result⟩,
        (s.installPackages g w (p.root workdir)).volume,
        (s.createProject g v workdir p).console ++
          (s.installPackages g w (p.root workdir)).console⟩ := by
  unfold Plan.root at hall ⊢
  unfold runPlan
  simp only [h, hall]
  rfl

/-- A call is made if it is switched on. -/
theorem callIf_eq (enabled : Bool) (g : Gateway) (call : ToolCall) (v : Volume) :
    (callIf enabled g call v).calls = (if enabled then [call] else []) ∧
      (callIf enabled g call v).volume = (if enabled then (g call v).volume else v) ∧
      (callIf enabled g call v).result = if enabled then (g call v).result else .ok () := by
  unfold callIf
  split_ifs
  · exact ⟨rfl, rfl, rfl⟩
  · exact ⟨rfl, rfl, rfl⟩

/-- The project has been created if nothing fails that is switched on. -/
theorem createProject_eq_ok (h : s.features.initializeProject = true →
    (g (.create p.projectName workdir) v).result = .ok ()) :
    (s.createProject g v workdir p).result = .ok () := by
  rw [createProject, (callIf_eq _ _ _ _).2.2]
  split_ifs with henabled
  · exact h henabled
  · rfl

/-- Where the project has been created the run is completed. -/
theorem completes_runPlan (h : s.features.initializeProject = true →
    (g (.create p.projectName workdir) v).result = .ok ()) :
    s.Completes g workdir p
      (s.volumeAfter (s.startOf g v workdir p) (p.root workdir) p.requests)
      (s.resultsOf (s.startOf g v workdir p) (p.root workdir) p.requests)
      (s.runPlan g v workdir p) := by
  obtain ⟨hcalls, hvolume, -⟩ :=
    callIf_eq s.features.initializeProject g (.create p.projectName workdir) v
  have hstart : (s.createProject g v workdir p).volume = s.startOf g v workdir p := hvolume
  have hrun := runPlan_of_ok (createProject_eq_ok h) (s.generateAll_eq _ _ _)
  rw [hstart] at hrun
  rw [hrun]
  obtain ⟨hinstallCalls, hinstallVolume, hinstallResult⟩ :=
    callIf_eq s.features.installPackages g (.install (p.root workdir) s.tools.packages)
      (s.volumeAfter (s.startOf g v workdir p) (p.root workdir) p.requests)
  refine ⟨?_, hinstallVolume, _, rfl, rfl, rfl, rfl, ?_⟩
  · exact congrArg₂ _ hcalls hinstallCalls
  · rw [installPackages, hinstallResult]
    split_ifs
    · rfl
    · rfl

/-- A project is created first, and if that fails nothing else is done. Otherwise the requests are
carried out in order, each on the disk that those before it have left; what becomes of each of them
is an outcome or a refusal; and packages are installed in the end. Without some of the requests that
are refused the run is the same, but for the list of refusals. -/
theorem runPlan_isolates (s : Settings) (g : Gateway) (v : Volume) (workdir : Path) (p : Plan) :
    (∀ e, s.features.initializeProject = true →
      (g (.create p.projectName workdir) v).result = .error e →
      s.runPlan g v workdir p = ⟨[.create p.projectName workdir], .error e,
        (g (.create p.projectName workdir) v).volume,
        (g (.create p.projectName workdir) v).console⟩) ∧
    ((s.features.initializeProject = true → (g (.create p.projectName workdir) v).result = .ok ()) →
      ∃ results, results = s.resultsOf (s.startOf g v workdir p) (p.root workdir) p.requests ∧
        s.Completes g workdir p
          (s.volumeAfter (s.startOf g v workdir p) (p.root workdir) p.requests) results
          (s.runPlan g v workdir p) ∧
        ((outcomesOf results).map Outcome.archetype ++ (refusalsOf results).map Prod.fst).Perm
          (p.requests.map Request.archetype) ∧
        ∀ dropped : ℕ → Bool,
          (∀ i archetype result, results[i]? = some (archetype, result) → dropped i = true →
            ∃ e, result = .error e) →
          s.runPlan g v workdir { p with requests := without dropped p.requests } =
            { s.runPlan g v workdir p with
              result := (s.runPlan g v workdir p).result.map fun summary =>
                { summary with rejected := refusalsOf (without dropped results) } }) := by
  refine ⟨fun e henabled h => runPlan_of_error henabled h, fun h => ⟨_, rfl, completes_runPlan h,
    s.perm_resultsOf _ _ _, fun dropped hdropped => ?_⟩⟩
  have hcreated := createProject_eq_ok h
  have hstart : (s.createProject g v workdir p).volume = s.startOf g v workdir p :=
    (callIf_eq _ _ _ _).2.1
  have hall := s.generateAll_eq (s.startOf g v workdir p) (p.root workdir) p.requests
  have hwithout := generateAll_without fun i r hr hi =>
    hdropped i _ _ (getElem?_resultsOf hr) hi
  rw [← hstart] at hall hwithout
  have houtcomes : outcomesOf (without dropped (s.resultsOf
      (s.createProject g v workdir p).volume (p.root workdir) p.requests)) =
      outcomesOf (s.resultsOf (s.createProject g v workdir p).volume (p.root workdir) p.requests) := by
    refine filterMap_without fun i result hresult hi => ?_
    rw [hstart] at hresult
    obtain ⟨e, he⟩ := hdropped i _ _ hresult hi
    rw [he]
    rfl
  rw [runPlan_of_ok hcreated hall, ← hstart]
  refine (runPlan_of_ok (p := { p with requests := without dropped p.requests }) hcreated
    hwithout).trans ?_
  rw [houtcomes]
  rfl

end Settings

end AppScaffold
