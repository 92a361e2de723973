import AppScaffold.CommandLine.Run
import AppScaffold.Proofs.Project.Isolation
import Mathlib.Data.List.Basic
import Mathlib.Tactic.Common

/-!
# The command for a new project and the run of its plan

The command goes through the steps of a plan by itself, telling of each of them. It calls the same
tools in the same order and leaves the same disk as the run of the plan, and its exit code tells
whether all has gone well. Where there is no plan to carry out nothing is touched.
-/

namespace AppScaffold

/-- All that a plan asks for has been done. -/
def RunSummary.IsComplete (summary : RunSummary) : Prop :=
  summary.rejected = [] ∧ (∀ o ∈ summary.outcomes, o.isSuccess = true) ∧
    summary.installProblem = none

/-- A run has created the project, and all that the plan asks for has been done. -/
def Run.Succeeds (run : Run (Except Problem RunSummary)) : Prop :=
  ∃ summary, run.result = .ok summary ∧ summary.IsComplete

/-- The text of a file at a name is read. -/
theorem Volume.readText_of_file {v : Volume} {path : Path} {name text : String}
    (hadmissible : Disk.admissible path = .ok ())
    (hsteps : Disk.steps path = [.name name]) (hlimit : ¬Disk.nameLimit < name.utf8ByteSize)
    (hfile : v.disk.get? ((if path.isAbsolute then [] else v.cwd) ++ [name]) =
      some (.file (.text text))) : v.readText path = .ok text := by
  have hwalk : v.disk.walk true Disk.linkLimit (if path.isAbsolute then [] else v.cwd)
      [.name name] = .ok (.found ((if path.isAbsolute then [] else v.cwd) ++ [name])) := by
    rw [Disk.walk.eq_def]
    simp only [if_neg hlimit, hfile]
    rfl
  rw [Volume.readText, Volume.find?, Disk.locate, hadmissible, hsteps]
  simp only [hwalk, hfile]

/-- A path that leads to a directory is one in which a program can be run. -/
theorem Volume.Leads.directory_eq {v : Volume} {p : Path} {dir : Location} (h : v.Leads p dir) :
    v.directory p = .ok dir := by
  rw [directory, h.trimmed.steps_eq, Disk.locate, h.admissible]
  simp only [h.walk, h.there, if_true]

/-- A plan that was found out in a dialogue or read from a brief is carried out in full if the project is
created, its directory is empty or can be made, and the packages can be installed there. -/
theorem Settings.runPlan_succeeds {asked features : Features} {tools : Tools} {p : Plan}
    (hp : p.Collected asked {}) (hshort : ∀ r ∈ p.requests, r.IsShort) {g : Gateway} {v u : Volume}
    {workdir : Path} {dir : Location}
    (hcreated : (createProject { features, tools } g v workdir p).result = .ok ())
    (hmade : (createProject { features, tools } g v workdir p).volume.Made u (p.root workdir) dir)
    (hroot : (p.root workdir).text.utf8ByteSize ≤ 3669)
    (hinstalled : ∀ x : Volume, x.Leads (p.root workdir) dir →
      (installPackages { features, tools } g x (p.root workdir)).result = .ok ()) :
    (runPlan { features, tools } g v workdir p).Succeeds := by
  obtain ⟨parts, rfl, hparts⟩ := hp.exists_parts
  obtain ⟨w, hfresh⟩ := exists_fresh hmade hroot
  have hreaches : ∀ r ∈ (parts.plan {}).requests, r.Reaches _ := fun r hr =>
    hfresh.reaches (hshort r hr)
  obtain ⟨x, hall, hshows⟩ := hparts.exists_generateAll_eq hfresh.toBegun hreaches
  rw [← generateAll_default features tools] at hall
  rw [runPlan_of_ok hcreated hall, hinstalled x (hfresh.leads_root hmade hshows)]
  refine ⟨_, rfl, (outcomesOf_map _).2, fun o ho => ?_, rfl⟩
  rw [(outcomesOf_map _).1] at ho
  exact (isSuccess_of_mem_outcomesIn hparts.nodup_files ho).1

namespace CommandLine

variable {s : Settings} {g : Gateway} {v w : Volume} {workdir : Path} {p : Plan}

/-- No request has failed if none was refused and all outcomes are successes. -/
theorem countP_isFailure_eq_zero_iff (results : List (Archetype × Except Problem Outcome)) :
    (results.countP fun r => isFailure r.2) = 0 ↔
      refusalsOf results = [] ∧ ∀ o ∈ outcomesOf results, o.isSuccess = true := by
  induction results with
  | nil => simp [refusalsOf, outcomesOf]
  | cons result results ih =>
    obtain ⟨a, e | o⟩ := result
    · rw [List.countP_cons_of_pos rfl]
      refine iff_of_false (Nat.succ_ne_zero _) fun h => ?_
      exact List.cons_ne_nil _ _ h.1
    · have houtcomes : outcomesOf ((a, Except.ok o) :: results) = o :: outcomesOf results := rfl
      have hrefusals : refusalsOf ((a, Except.ok o) :: results) = refusalsOf results := rfl
      rw [houtcomes, hrefusals, List.forall_mem_cons]
      cases ho : o.isSuccess with
      | true =>
        rw [List.countP_cons_of_neg (by simp [isFailure, ho]), ih]
        simp
      | false =>
        rw [List.countP_cons_of_pos (by simp [isFailure, ho])]
        simp

/-- The command carries out a plan like a run: the calls and the disk are the same, and it succeeds if
the run does. -/
theorem carryOutPlan_agrees (s : Settings) (g : Gateway) (v : Volume) (workdir : Path) (p : Plan) :
    (carryOutPlan s g v workdir p).calls = (s.runPlan g v workdir p).calls ∧
      (carryOutPlan s g v workdir p).volume = (s.runPlan g v workdir p).volume ∧
      ((carryOutPlan s g v workdir p).result = .ok () ↔ (s.runPlan g v workdir p).Succeeds) := by
  cases hcreated : (s.createProject g v workdir p).result with
  | error e =>
    unfold carryOutPlan Settings.runPlan
    simp only [hcreated]
    refine ⟨trivial, trivial, iff_of_false nofun ?_⟩
    rintro ⟨summary, hsummary, -⟩
    cases hsummary
  | ok =>
    obtain ⟨⟨results, w⟩, hall⟩ : ∃ all, s.generateAll (s.createProject g v workdir p).volume
        (p.root workdir) p.requests = all := ⟨_, rfl⟩
    rw [Settings.runPlan_of_ok hcreated hall]
    unfold Plan.root at hall ⊢
    unfold carryOutPlan
    simp only [hcreated, hall]
    cases hinstalled : (s.installPackages g w (workdir.join (.ofText p.projectName))).result with
    | error e =>
      refine ⟨rfl, rfl, iff_of_false nofun ?_⟩
      rintro ⟨summary, hsummary, -, -, hproblem⟩
      obtain rfl := Except.ok.inj hsummary
      cases hproblem
    | ok =>
      by_cases hfailures : (results.countP fun r => isFailure r.2) = 0
      · rw [if_pos hfailures]
        have hall := (countP_isFailure_eq_zero_iff results).mp hfailures
        exact ⟨rfl, rfl, iff_of_true rfl ⟨_, rfl, hall.1, hall.2, rfl⟩⟩
      · rw [if_neg hfailures]
        refine ⟨rfl, rfl, iff_of_false nofun ?_⟩
        rintro ⟨summary, hsummary, hrejected, houtcomes, -⟩
        obtain rfl := Except.ok.inj hsummary
        exact hfailures ((countP_isFailure_eq_zero_iff results).mpr ⟨hrejected, houtcomes⟩)

/-- The brief in a file leads to a plan. -/
def BriefYields (s : Settings) (v : Volume) (file : Path) (p : Plan) : Prop :=
  ∃ document brief, v.readText file = .ok document ∧ Brief.ofText document = .ok brief ∧
    brief.toPlan s.features s.layout = .ok p

/-- The plan of the command is that of the brief. -/
theorem planOf_eq_ok_iff {file : Path} : planOf s v (some file) = .ok p ↔ BriefYields s v file p := by
  rw [planOf, BriefYields]
  cases hread : v.readText file with
  | error e => simp
  | ok document =>
    cases hbrief : Brief.ofText document with
    | error e => simp [hbrief, Except.bind, Except.mapError]
    | ok brief =>
      cases hplan : brief.toPlan s.features s.layout with
      | error e => simp [hbrief, hplan, Except.bind, Except.mapError]
      | ok q => simp [hbrief, hplan, Except.bind, Except.mapError]

/-- The plan can be carried out: the project is not created where something is already. -/
def HasRoom (s : Settings) (v : Volume) (workdir : Path) (p : Plan) : Prop :=
  s.features.initializeProject = true → v.exists? (p.root workdir) = false

/-- Where there is room for the project the plan is carried out. -/
theorem newProject_eq {file : Path} (hbrief : BriefYields s v file p) (hroom : HasRoom s v workdir p) :
    newProject s g v workdir (some file) = carryOutPlan s g v workdir p := by
  unfold HasRoom Plan.root at hroom
  rw [newProject, planOf_eq_ok_iff.mpr hbrief]
  refine if_neg fun htaken => ?_
  rw [Bool.and_eq_true] at htaken
  rw [hroom htaken.1] at htaken
  cases htaken.2

/-- Where there is no plan or no room for the project nothing is done. -/
theorem newProject_of_not {file : Path} (h : ¬∃ p, BriefYields s v file p ∧ HasRoom s v workdir p) :
    ∃ f, newProject s g v workdir (some file) = ⟨[], .error f, v, {}⟩ := by
  rw [newProject]
  cases hplan : planOf s v (some file) with
  | error f => exact ⟨f, rfl⟩
  | ok p =>
    refine ⟨_, if_pos ?_⟩
    by_contra hfree
    refine h ⟨p, planOf_eq_ok_iff.mp hplan, fun henabled => ?_⟩
    rw [henabled, Bool.true_and, Bool.not_eq_true] at hfree
    exact hfree

section Call

variable {c : Call} {file : String}

/-- The command with a brief makes a new project. -/
theorem action_new (hnew : c.form.name = "new") (hfile : c.option "answers" = some file) :
    c.action = .ok (.newProject (some (.ofText file))) := by
  unfold Call.action
  rw [hnew, hfile]
  rfl

/-- The command with a brief is run with the settings that are loaded. -/
theorem run_new (hnew : c.form.name = "new") (hfile : c.option "answers" = some file)
    (around : Surroundings) :
    c.run around =
      match Settings.load around.volume around.environment (c.root around.volume) with
      | .error p => ⟨[], .error (.configuration p), around.volume, {}⟩
      | .ok s => newProject s (s.tools.gateway around.programs) around.volume
          (c.root around.volume) (some (.ofText file)) := by
  unfold Call.run
  rw [action_new hnew hfile]
  rfl

end Call

/-- The disk at the end is that of the command, and the exit code tells whether it has succeeded. -/
theorem finish_eq (r : Run (Except Failure Unit)) :
    (finish r).volume = r.volume ∧ (r.result = .ok () → (finish r).status = .code 0) ∧
      (r.result ≠ .ok () → (finish r).status = .code 1) := by
  unfold finish
  cases r.result with
  | error f => exact ⟨rfl, nofun, fun _ => rfl⟩
  | ok => exact ⟨rfl, fun _ => rfl, fun h => absurd rfl h⟩

/-- A command for a new project from a brief does what the run of the plan does, if the settings can
be loaded, the brief leads to a plan, and there is room for the project; its exit code is 0 if the
run has succeeded, and 1 if not. Otherwise the exit code is 1, and nothing is called or changed. -/
theorem execute_newProject {args : List String} {c : Call} {file : String}
    (hargs : Call.ofArguments args = .ok c) (hnew : c.form.name = "new")
    (hfile : c.option "answers" = some file) (around : Surroundings) :
    (∀ s p, Settings.load around.volume around.environment (c.root around.volume) = .ok s →
      BriefYields s around.volume (.ofText file) p →
      HasRoom s around.volume (c.root around.volume) p →
      ∃ run, run =
          s.runPlan (s.tools.gateway around.programs) around.volume (c.root around.volume) p ∧
        (c.run around).calls = run.calls ∧ (execute args around).volume = run.volume ∧
        (run.Succeeds → (execute args around).status = .code 0) ∧
        (¬run.Succeeds → (execute args around).status = .code 1)) ∧
    ((¬∃ s p, Settings.load around.volume around.environment (c.root around.volume) = .ok s ∧
        BriefYields s around.volume (.ofText file) p ∧
        HasRoom s around.volume (c.root around.volume) p) →
      (c.run around).calls = [] ∧ (execute args around).volume = around.volume ∧
        (execute args around).status = .code 1) := by
  have hexecute : execute args around = finish (c.run around) := by rw [execute, hargs]
  have hrun := run_new hnew hfile around
  obtain ⟨hvolume, hdone, hfailed⟩ := finish_eq (c.run around)
  rw [hexecute, hvolume]
  constructor
  · intro s p hload hbrief hroom
    rw [hload] at hrun
    rw [hrun.trans (newProject_eq hbrief hroom)] at hdone hfailed ⊢
    obtain ⟨hcalls, hleft, hresult⟩ := carryOutPlan_agrees s (s.tools.gateway around.programs)
      around.volume (c.root around.volume) p
    exact ⟨_, rfl, hcalls, hleft, fun h => hdone (hresult.mpr h),
      fun h => hfailed fun hok => h (hresult.mp hok)⟩
  · intro hnot
    have hstopped : ∃ f, c.run around = ⟨[], .error f, around.volume, {}⟩ := by
      cases hload : Settings.load around.volume around.environment (c.root around.volume) with
      | error e =>
        rw [hload] at hrun
        exact ⟨_, hrun⟩
      | ok s =>
        rw [hload] at hrun
        obtain ⟨f, hf⟩ := newProject_of_not (g := s.tools.gateway around.programs) fun ⟨p, hp⟩ =>
          hnot ⟨s, p, hload, hp⟩
        exact ⟨f, hrun.trans hf⟩
    obtain ⟨f, hf⟩ := hstopped
    rw [hf] at hfailed ⊢
    exact ⟨rfl, rfl, hfailed nofun⟩

section Shop

/-- A disk with a brief of a shop that has one screen, and with an empty working directory. -/
def briefed : Volume :=
  ⟨⟨[(["b.json"],
      .file (.text "\x7b\"projectName\": \"shop\", \"screenNames\": [\"Home\"]\x7d")),
    (["w"], .dir)]⟩, ["w"]⟩

/-- The plan of the shop. -/
def shop : Plan := .project "shop" ["Home"] false none {}

/-- Programs that succeed and do nothing. -/
def idle : Programs := fun _ => some fun _ v => ⟨.code 0, v, {}⟩

/-- The brief leads to the plan. -/
theorem briefYields_shop : BriefYields {} briefed (.ofText "/b.json") shop := by
  have hread : briefed.readText (.ofText "/b.json") =
      .ok "\x7b\"projectName\": \"shop\", \"screenNames\": [\"Home\"]\x7d" :=
    @Volume.readText_of_file briefed _ "b.json" _ (by decide) (by decide) (by decide) rfl
  exact ⟨_, ⟨"shop", none, ["Home"], none, false⟩, hread, by decide +kernel, rfl⟩

/-- The working directory is an empty directory. -/
theorem made_briefed : briefed.Made briefed ⟨"", ["w"]⟩ ["w"] := by
  refine Volume.made_of_vacant ⟨⟨⟨fun s hs => ?_, fun hnil => by cases hnil⟩, by decide, ?_, rfl⟩,
    fun name names => ?_⟩
  · obtain rfl := Option.some.inj hs
    decide
  · have hsteps : Disk.bareSteps ⟨"", ["w"]⟩ = [.name "w"] := by decide
    have hlimit : ¬Disk.nameLimit < "w".utf8ByteSize := by decide
    have hdir : briefed.disk.get? ([] ++ ["w"]) = some .dir := rfl
    rw [hsteps]
    exact (Disk.walk_dir hlimit hdir).trans (by rw [Disk.walk]; rfl)
  · simp [briefed, Disk.get?, List.lookup_cons]

/-- The names that are looked up in the working directory can follow its path. -/
theorem follows_briefed {name : String} (h : name ∈ ["shop", "expo-scaffold.toml"]) :
    Follows ⟨"", ["w"]⟩ [name] := by
  have hnames : ∀ name ∈ ["shop", "expo-scaffold.toml"], IsName name := by decide
  have hsizes : ∀ name ∈ ["shop", "expo-scaffold.toml"],
      (⟨"", ["w"]⟩ : Path).text.utf8ByteSize + width [name] < Disk.pathLimit := by decide
  exact ⟨List.forall_mem_singleton.mpr (hnames name h), hsizes name h⟩

/-- Nothing is at these names. -/
theorem exists?_briefed {name : String} (h : name ∈ ["shop", "expo-scaffold.toml"]) :
    briefed.exists? (Path.extend ⟨"", ["w"]⟩ [name]) = false := by
  rw [Volume.exists?, (made_briefed.find?_eq (follows_briefed h) (List.cons_ne_nil _ _)).1]
  rfl

/-- Without a configuration file the settings are those that come with the library. -/
theorem load_briefed : Settings.load briefed [] ⟨"", ["w"]⟩ = .ok {} := by
  have hdefault : Settings.ofLayers [Environment.tree []] = .ok {} := by decide +kernel
  have hfile : (⟨"", ["w"]⟩ : Path).join configFileName =
      Path.extend ⟨"", ["w"]⟩ ["expo-scaffold.toml"] := by decide
  rw [Settings.load, hfile, exists?_briefed (by decide)]
  exact hdefault

/-- The directory of the project is in the working directory. -/
theorem root_shop : shop.root ⟨"", ["w"]⟩ = Path.extend ⟨"", ["w"]⟩ ["shop"] := by decide

/-- Tools that run programs that do nothing succeed in a directory. -/
theorem gateway_idle {v : Volume} {p : Path} {dir : Location} (h : v.Leads p dir) (t : Tools)
    (name : String) (packages : List String) :
    t.gateway idle (.create name p) v = ⟨.ok (), v, {}⟩ ∧
      t.gateway idle (.install p packages) v = ⟨.ok (), v, {}⟩ := by
  have hrun : ∀ program args, Tools.runProgram idle program args p v = ⟨.ok (), v, {}⟩ := by
    intro program args
    rw [Tools.runProgram, h.directory_eq]
    rfl
  constructor
  · rw [Tools.gateway, hrun]
  · rw [Tools.gateway, hrun, ite_self]

/-- If the programs do nothing and succeed the shop is made. -/
theorem runPlan_shop_succeeds :
    (Settings.runPlan {} (({} : Tools).gateway idle) briefed ⟨"", ["w"]⟩ shop).Succeeds := by
  obtain ⟨u, hmade, -⟩ := made_briefed.exists_extend (follows_briefed (by decide : "shop" ∈ _))
    (List.cons_ne_nil _ _)
  obtain ⟨_, brief, -, -, hplan⟩ := briefYields_shop
  have hcollected : shop.Collected {} {} := .inr ⟨brief, hplan⟩
  have hshort : ∀ r ∈ shop.requests, r.IsShort := by
    intro r hr parameter hparameter name hname
    rcases List.mem_pair.mp hr with rfl | rfl
    all_goals rcases List.mem_pair.mp hparameter with rfl | rfl
    all_goals cases hname
    decide
  have hcreated : Settings.createProject {} (({} : Tools).gateway idle) briefed ⟨"", ["w"]⟩ shop =
      ⟨[.create "shop" ⟨"", ["w"]⟩], .ok (), briefed, {}⟩ :=
    congrArg (fun r : Reply => (⟨_, r.result, r.volume, r.console⟩ : Run (Except Problem Unit)))
      (gateway_idle made_briefed.toLeads {} "shop" []).1
  refine @Settings.runPlan_succeeds {} {} {} shop hcollected hshort _ briefed u ⟨"", ["w"]⟩
    ["w", "shop"] ?_ ?_ (by decide) fun x hx => ?_
  · rw [hcreated]
  · rw [hcreated, root_shop]
    exact hmade
  · rw [Settings.installPackages, (Settings.callIf_eq _ _ _ _).2.2, (gateway_idle hx {} "shop" _).2,
      ite_self]

/-- The arguments call the command for a new project with the brief, in the working directory. -/
theorem exists_call : ∃ c : Call, Call.ofArguments ["new", "--answers", "/b.json"] = .ok c ∧
    c.form.name = "new" ∧ c.option "answers" = some "/b.json" ∧ c.option "root" = none := by
  have hgiven : (Call.ofArguments ["new", "--answers", "/b.json"]).map
      (fun c => (c.form.name, c.option "answers", c.option "root")) =
      .ok ("new", some "/b.json", none) := by decide +kernel
  cases hargs : Call.ofArguments ["new", "--answers", "/b.json"] with
  | error stop =>
    rw [hargs] at hgiven
    cases hgiven
  | ok c =>
    rw [hargs] at hgiven
    obtain ⟨hnew, hoptions⟩ := Prod.mk.inj (Except.ok.inj hgiven)
    exact ⟨c, rfl, hnew, Prod.mk.inj hoptions⟩

/-- A shop is made from a brief. If the programs succeed, the project is created, its requests are carried
out and its packages installed, and the exit code is 0. If there are no programs, the creation is tried,
and the exit code is 1. -/
theorem execute_newProject_shop :
    ∃ c : Call, Call.ofArguments ["new", "--answers", "/b.json"] = .ok c ∧
      Settings.load briefed [] (c.root briefed) = .ok {} ∧
      BriefYields {} briefed (.ofText "/b.json") shop ∧ HasRoom {} briefed (c.root briefed) shop ∧
      (c.run ⟨briefed, [], idle⟩).calls =
        [.create "shop" ⟨"", ["w"]⟩, .install ⟨"", ["w", "shop"]⟩ ({} : Tools).packages] ∧
      (execute ["new", "--answers", "/b.json"] ⟨briefed, [], idle⟩).status = .code 0 ∧
      (c.run ⟨briefed, [], fun _ => none⟩).calls = [.create "shop" ⟨"", ["w"]⟩] ∧
      (execute ["new", "--answers", "/b.json"] ⟨briefed, [], fun _ => none⟩).volume = briefed ∧
      (execute ["new", "--answers", "/b.json"] ⟨briefed, [], fun _ => none⟩).status = .code 1 := by
  obtain ⟨c, hargs, hnew, hfile, hnone⟩ := exists_call
  have hroot : c.root briefed = ⟨"", ["w"]⟩ := by
    rw [Call.root, hnone]
    rfl
  have hload : Settings.load briefed [] (c.root briefed) = .ok {} := by
    rw [hroot]
    exact load_briefed
  have hroom : HasRoom {} briefed (c.root briefed) shop := fun _ => by
    rw [hroot, root_shop]
    exact exists?_briefed (by decide)
  have hexecute := fun programs =>
    (@execute_newProject _ c "/b.json" hargs hnew hfile ⟨briefed, [], programs⟩).1 {} shop hload
      briefYields_shop hroom
  simp only [hroot] at hexecute
  refine ⟨c, hargs, hload, briefYields_shop, hroom, ?_⟩
  obtain ⟨_, rfl, hcalls, -, hdone, -⟩ := hexecute idle
  obtain ⟨_, rfl, hcalls', hvolume, -, hfailed⟩ := hexecute fun _ => none
  have hcreation := (gateway_idle made_briefed.toLeads {} "shop" []).1
  have hcompletes := @Settings.completes_runPlan {} (({} : Tools).gateway idle) briefed ⟨"", ["w"]⟩ shop
    fun _ => congrArg Reply.result hcreation
  have hmissing : ({} : Tools).gateway (fun _ => none) (.create "shop" ⟨"", ["w"]⟩) briefed =
      ⟨.error (.externalProcessFailed "npx" Fault.notFound.message), briefed, {}⟩ := by
    rw [Tools.gateway, Tools.runProgram, made_briefed.toLeads.directory_eq]
  have hstopped := @Settings.runPlan_of_error {} _ _ ⟨"", ["w"]⟩ shop _ rfl
    (congrArg Reply.result hmissing)
  rw [hstopped] at hcalls' hvolume hfailed
  rw [hcalls, hcompletes.calls, hcalls', hvolume, root_shop]
  refine ⟨rfl, hdone runPlan_shop_succeeds, rfl, congrArg Reply.volume hmissing, hfailed ?_⟩
  rintro ⟨summary, hsummary, -⟩
  cases hsummary

end Shop

end CommandLine

end AppScaffold
