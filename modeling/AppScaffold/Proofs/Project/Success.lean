import AppScaffold.Proofs.Disk.Passing
import AppScaffold.Proofs.Project.PlanRun

/-!
# What is there when all requests have succeeded

A run of which every request succeeded tells by its success that all places in the project could be
reached. What is on the disk is then settled by the requests alone, however long their names are.
-/

namespace AppScaffold

open Disk Volume

/-- A segment of its own is a step into an entry. -/
theorem IsSegment.step {s : String} (h : IsSegment s) : segmentStep s = some (.name s) := by
  obtain ⟨hempty, hone, htwo⟩ := isSegment_iff.mp h
  rw [segmentStep, if_neg hempty, if_neg hone, if_neg htwo]

/-- The files of a request are where segments of their own lead. -/
theorem Request.isSegment_of_mem_files {r : Request} {loc : Location} {t : String}
    (h : (loc, t) ∈ r.files) : ∀ s ∈ loc, IsSegment s := by
  have hhome : IsSegment r.archetype.home := by
    cases r.archetype with
    | _ => decide
  rcases location_cases h with ⟨-, name, file, -, hident, hfile, rfl⟩ | ⟨-, file, hfile, rfl⟩
  · obtain ⟨c, hc, htail⟩ := exists_mem_of_isIdentifier hident
    have hmore : ∀ ending : String, IsSegment (name ++ ending) := fun ending =>
      isSegment_of_mem (c := c) (by simp [hc]) (ne_of_isIdentifierTail htail).1
    have hown : IsSegment file := by
      unfold Template.ownFiles at hfile
      split_ifs at hfile
      · rw [List.mem_singleton.mp hfile]
        exact hmore _
      · simp only [List.mem_cons, List.not_mem_nil, or_false] at hfile
        rcases hfile with rfl | rfl | rfl
        · exact hmore _
        · exact hmore _
        · decide
    simpa using ⟨hhome, (isSegment_of_isIdentifier hident).1, hown⟩
  · have hfixed : IsSegment file := by
      simp only [Template.fixedNames, List.mem_cons, List.not_mem_nil, or_false] at hfile
      rcases hfile with rfl | rfl | rfl | rfl | rfl
      all_goals decide
    simpa using ⟨hhome, hfixed⟩

/-- Where names follow a path that can be passed they can be reached from it. -/
theorem follows_of_isPassable {p : Path} {names : List String} (hnames : ∀ s ∈ names, IsSegment s)
    (h : ¬endsWithSlash (p.extend names) → (p.extend names).IsPassable) (hne : names ≠ []) :
    Follows p names := by
  refine (h ?_).follows fun s hs => (hnames s hs).step
  have hlast : (p.extend names).rest.getLast? = some (names.getLast hne) := by
    rw [Path.extend, List.getLast?_append, List.getLast?_eq_getLast_of_ne_nil hne]
    rfl
  rw [endsWithSlash, hlast]
  simpa using (isSegment_iff.mp (hnames _ (List.getLast_mem hne))).1

namespace Settings

variable {s : Settings} {v w : Volume} {root : Path} {r : Request} {o : Outcome}

/-- A request that has succeeded has gone along the paths of its files and of its registry. -/
theorem isPassable_of_isSuccess (h : s.generate v root r = (.ok o, w)) (ho : o.isSuccess = true) :
    ∃ tree entry, s.prepare v root r = .ok (tree, entry) ∧
      (∀ f ∈ tree.files, ∀ p, p = (root.join (s.layout.directory v root r.archetype)).join f.path →
        ¬endsWithSlash p → p.IsPassable) ∧
      ∀ e, entry = some e → ∃ x, (root.join (s.aggregatorPath e.aggregator x root)).IsPassable := by
  cases generate_eq_iff.mp h with
  | stopped => cases ho
  | @filed tree report _ hprepare hfiles =>
    refine ⟨tree, none, hprepare, fun f hf p hp hslash => ?_, nofun⟩
    rw [hp] at hslash ⊢
    exact isPassable_of_placeFiles hfiles hf hslash
  | @registered tree entry report patch x _ hprepare hfiles hregister =>
    refine ⟨tree, some entry, hprepare, fun f hf p hp hslash => ?_, ?_⟩
    · rw [hp] at hslash ⊢
      exact isPassable_of_placeFiles hfiles hf hslash
    · rintro _ ⟨⟩
      refine ⟨x, ?_⟩
      cases register_eq_iff.mp hregister with
      | unpatched | unwritten => cases ho
      | written hpatch hwrite =>
        obtain ⟨u, -, hwritten⟩ := write_eq_ok hwrite
        rw [← (s.patchAggregator_eq_ok hpatch).1]
        exact isPassable_of_writeFile hwritten

/-- Every request of a list is carried out on some disk. -/
theorem exists_generate_of_mem {rs : List Request} (hr : r ∈ rs) (v : Volume) :
    ∃ x, (r.archetype, (s.generate x root r).1) ∈ (s.generateAll v root rs).1 := by
  induction rs generalizing v with
  | nil => cases hr
  | cons q rs ih =>
    rw [generateAll]
    rcases List.mem_cons.mp hr with rfl | hr
    · exact ⟨v, List.mem_cons_self⟩
    · obtain ⟨x, hx⟩ := ih hr (s.generate v root q).2
      exact ⟨x, List.mem_cons_of_mem _ hx⟩

end Settings

/-- Names that are as long can follow a path as well. -/
theorem Follows.of_width {p : Path} {names names' : List String} (h : Follows p names)
    (hnames : ∀ s ∈ names', IsName s) (hwidth : width names' = width names) : Follows p names' :=
  ⟨hnames, hwidth ▸ h.short⟩

/-- The paths of a request are as long as those that it has in the library, whatever is on the disk. -/
structure Request.KeepsWidth (r : Request) : Prop where
  /-- The directory has a name of the same length. -/
  directory : ∀ v root, ∃ home, IsName home ∧ home.utf8ByteSize = r.archetype.home.utf8ByteSize ∧
    Layout.directory {} v root r.archetype = ⟨"src", [home]⟩
  /-- So has the registry, if there is one. -/
  registry : ∀ e, r.registration = some e → (∀ s ∈ e.aggregator.location, IsName s) ∧
    ∀ v root, ∃ loc, (∀ s ∈ loc, IsName s) ∧ loc ≠ [] ∧ width loc = width e.aggregator.location ∧
      Settings.aggregatorPath {} e.aggregator v root = ⟨"src", loc⟩

/-- What a request has made when it has succeeded can be reached. -/
theorem Request.KeepsWidth.reaches {r : Request} (hr : r.KeepsWidth) {v w : Volume} {root : Path}
    {o : Outcome} (h : Settings.generate {} v root r = (.ok o, w)) (ho : o.isSuccess = true) :
    r.Reaches root := by
  obtain ⟨tree, entry, hprepare, hplaced, hregistered⟩ := Settings.isPassable_of_isSuccess h ho
  obtain ⟨htree, hregistration, -⟩ := Settings.of_prepare hprepare
  refine ⟨fun loc hloc => ?_, fun e he => ?_⟩
  · obtain ⟨file, hfile, rfl⟩ := List.mem_map.mp hloc
    have hsegments := isSegment_of_mem_files hfile
    rw [files_eq htree] at hfile
    obtain ⟨f, hf, rfl⟩ := List.mem_map.mp hfile
    obtain ⟨home, hhome, hsize, hdir⟩ := hr.directory v root
    have hrest : ∀ s ∈ f.path.first :: f.path.rest, IsSegment s := fun s hs =>
      hsegments s (List.mem_cons_of_mem _ hs)
    have hfirst : f.path.first ≠ "" := (isSegment_iff.mp (hrest _ List.mem_cons_self)).1
    have hfollows : Follows (sources root) (home :: f.path.first :: f.path.rest) := by
      refine follows_of_isPassable (List.forall_mem_cons.mpr ⟨hhome.isSegment, hrest⟩)
        (hplaced f hf _ ?_) (List.cons_ne_nil _ _)
      rw [hdir, Path.join_join_src root hhome hfirst, Path.join_src]
    have hname : IsName r.archetype.home := by
      cases r.archetype with
      | _ => decide
    refine hfollows.of_width (List.forall_mem_cons.mpr
      ⟨hname, (List.forall_mem_cons.mp hfollows.proper).2⟩) ?_
    simp only [GeneratedFile.location, width, hsize]
  · obtain ⟨hlocation, hpaths⟩ := hr.registry e he
    obtain ⟨entry, rfl, rfl⟩ := Option.map_eq_some_iff.mp (hregistration.symm.trans he)
    obtain ⟨x, hpassable⟩ := hregistered entry rfl
    obtain ⟨loc, hnames, hne, hwidth, hpath⟩ := hpaths x root
    rw [hpath, Path.join_src] at hpassable
    have hfollows := follows_of_isPassable (fun s hs => (hnames s hs).isSegment) (fun _ => hpassable) hne
    exact hfollows.of_width hlocation hwidth.symm

/-- The places of a request do not depend on what is on the disk. -/
structure Request.IsSettled (r : Request) : Prop where
  /-- The directory is that of the library. -/
  directory : ∀ v root, Layout.directory {} v root r.archetype = ⟨"src", [r.archetype.home]⟩
  /-- The registry, if it has one, is a list of screens. -/
  registry : ∀ e, r.registration = some e → e.aggregator ∈ [.screenRegistry, .loginRegistry]

/-- A list of screens has one place, whatever is on the disk. -/
theorem Aggregator.path_of_mem {a : Aggregator} (ha : a ∈ [screenRegistry, loginRegistry]) :
    (∀ s ∈ a.location, IsName s) ∧ a.location ≠ [] ∧
      ∀ v root, Settings.aggregatorPath {} a v root = ⟨"src", a.location⟩ := by
  simp only [List.mem_cons, List.not_mem_nil, or_false] at ha
  rcases ha with rfl | rfl
  · exact ⟨by decide, by decide, fun v root => rfl⟩
  · exact ⟨by decide, by decide, fun v root => rfl⟩

/-- Places that do not depend on what is on the disk are those of the library. -/
theorem Request.IsSettled.keepsWidth {r : Request} (hr : r.IsSettled) : r.KeepsWidth where
  directory v root := by
    refine ⟨_, ?_, rfl, hr.directory v root⟩
    cases r.archetype with
    | _ => decide
  registry e he := by
    obtain ⟨hnames, hne, hpath⟩ := Aggregator.path_of_mem (hr.registry e he)
    exact ⟨hnames, fun v root => ⟨_, hnames, hne, rfl, hpath v root⟩⟩

/-- A project begins at an empty directory, and where one can be made, if some place in it with a name as
long as that of the directory of the state can be reached. -/
theorem exists_begun {v u : Volume} {root : Path} {dir : Location} (hmade : Made v u root dir)
    {names : List String} (h : Follows (sources root) names) (hwidth : width ["redux"] ≤ width names) :
    ∃ x, Paved u x dir ["src"] ∧ Begun v root x (dir ++ ["src"]) := by
  have hsources : sources root = root.extend ["src"] := hmade.trimmed.join_eq (by decide)
  have hshort := h.short
  have hredux : width ["redux"] = 6 := by decide
  have hsrc : width ["src"] = 4 := by decide
  have hroot : Follows root ["src"] := by
    refine ⟨by decide, ?_⟩
    rw [hsources, Path.utf8ByteSize_text_extend] at hshort
    omega
  have hroom : Follows (sources root) ["redux"] := ⟨by decide, by omega⟩
  obtain ⟨x, hx, hpaved⟩ := exists_made hmade hroot
  exact ⟨x, hpaved, hx, hroom⟩

/-- Where nothing was refused and every outcome is a success, each request has succeeded. -/
theorem exists_isSuccess_of_mem {results : List (Archetype × Except Problem Outcome)}
    (haccepted : refusalsOf results = []) (hsuccess : ∀ o ∈ outcomesOf results, o.isSuccess = true)
    {result : Archetype × Except Problem Outcome} (h : result ∈ results) :
    ∃ o, result.2 = .ok o ∧ o.isSuccess = true := by
  obtain ⟨a, result⟩ := result
  cases result with
  | error e =>
    have hmem : (a, e) ∈ refusalsOf results := List.mem_filterMap.mpr ⟨_, h, rfl⟩
    rw [haccepted] at hmem
    cases hmem
  | ok o => exact ⟨o, rfl, hsuccess o (List.mem_filterMap.mpr ⟨_, h, rfl⟩)⟩

namespace PlanParts

variable {parts : PlanParts} {v u w : Volume} {root : Path} {dir : Location}

/-- The places of the requests of a plan do not depend on what is on the disk. -/
theorem IsChecked.isSettled (h : parts.IsChecked) {r : Request}
    (hr : r ∈ (parts.plan {}).requests) : r.IsSettled := by
  rcases mem_requests_iff.mp hr with rfl | ⟨name, hname, rfl⟩ | ⟨-, rfl⟩ | ⟨url, -, rfl⟩
  · refine ⟨fun v root => rfl, fun e he => ?_⟩
    rw [Request.registration_eq_none (by simp [Request.navigation])] at he
    cases he
  · refine ⟨fun v root => rfl, fun e he => ?_⟩
    rw [h.registration_screen hname] at he
    obtain rfl := Option.some.inj he
    exact List.mem_cons_self
  · refine ⟨fun v root => rfl, fun e he => ?_⟩
    rw [registration_login] at he
    obtain rfl := Option.some.inj he
    exact List.mem_cons_of_mem _ List.mem_cons_self
  · refine ⟨fun v root => rfl, fun e he => ?_⟩
    rw [Request.registration_eq_none (by simp [Request.apiConfig])] at he
    cases he

/-- When all requests of a plan have succeeded in an empty directory, the sources hold what they have
made, and nothing else has changed. -/
theorem IsChecked.exists_shows (h : parts.IsChecked) (hmade : Made v u root dir)
    {results : List (Archetype × Except Problem Outcome)}
    (hall : Settings.generateAll {} v root (parts.plan {}).requests = (results, w))
    (haccepted : refusalsOf results = [])
    (hsuccess : ∀ o ∈ outcomesOf results, o.isSuccess = true) :
    ∃ x, Paved u x dir ["src"] ∧ x.disk.get? (dir ++ ["src"]) = some .dir ∧
      Shows x (dir ++ ["src"]) (contents (parts.plan {}).requests) w := by
  have hreaches : ∀ r ∈ (parts.plan {}).requests, r.Reaches root := by
    intro r hr
    obtain ⟨x, hx⟩ : ∃ x, (r.archetype, (Settings.generate {} x root r).1) ∈
        (Settings.generateAll {} v root (parts.plan {}).requests).1 :=
      Settings.exists_generate_of_mem hr v
    rw [hall] at hx
    obtain ⟨o, ho, hdone⟩ := exists_isSuccess_of_mem haccepted hsuccess hx
    exact (h.isSettled hr).keepsWidth.reaches (Prod.ext ho rfl) hdone
  have hnavigation : Follows (sources root) ["Navigation", "AppNavigation.jsx"] := by
    refine (hreaches _ (mem_requests_iff.mpr (.inl rfl))).files _ ?_
    rw [Request.files_navigation]
    exact List.mem_cons_self
  obtain ⟨x, hpaved, hbegun⟩ := exists_begun hmade hnavigation (by decide)
  have hne : (parts.plan {}).requests ≠ [] := by simp [plan, Plan.project]
  have hok : ∀ result ∈ (Settings.generateAll {} v root (parts.plan {}).requests).1,
      ∃ o, result.2 = .ok o := by
    rw [hall]
    intro result hresult
    obtain ⟨o, ho, -⟩ := exists_isSuccess_of_mem haccepted hsuccess hresult
    exact ⟨o, ho⟩
  have hshows := (hbegun.generateAll_shows hreaches hne hok).2
  rw [hall] at hshows
  exact ⟨x, hpaved, hbegun.there, hshows⟩

/-- The files in the directory of a new project are those that the requests have made. -/
theorem IsChecked.get?_eq_iff (h : parts.IsChecked) (hmade : Made v u root dir)
    {results : List (Archetype × Except Problem Outcome)}
    (hall : Settings.generateAll {} v root (parts.plan {}).requests = (results, w))
    (haccepted : refusalsOf results = [])
    (hsuccess : ∀ o ∈ outcomesOf results, o.isSuccess = true) {file : Location} {c : Content} :
    w.disk.get? (dir ++ file) = some (.file c) ↔
      ∃ loc t, file = "src" :: loc ∧ contents (parts.plan {}).requests loc = some t ∧
        c = .text t := by
  obtain ⟨x, hpaved, hthere, hshows⟩ := h.exists_shows hmade hall haccepted hsuccess
  have happend : ∀ loc, dir ++ "src" :: loc = (dir ++ ["src"]) ++ loc := fun loc =>
    List.append_cons dir "src" loc
  -- outside the sources the disk is as it was before the run
  have houtside : ∀ loc, loc.head? ≠ some "src" → w.disk.get? (dir ++ loc) = u.disk.get? (dir ++ loc) := by
    intro loc hloc
    rw [hshows.outside, hpaved.rest]
    · intro q hq hne heq
      rcases List.prefix_cons_iff.mp hq with rfl | ⟨t, rfl, -⟩
      · exact hne rfl
      · exact hloc (by rw [List.append_cancel_left heq]; rfl)
    · intro name names heq
      rw [List.append_assoc] at heq
      exact hloc (by rw [List.append_cancel_left heq]; rfl)
  constructor
  · intro hfile
    cases file with
    | nil =>
      rw [houtside [] (by simp), List.append_nil, hmade.there] at hfile
      cases hfile
    | cons s loc =>
      by_cases hs : s = "src"
      · subst hs
        rw [happend] at hfile
        cases ht : contents (parts.plan {}).requests loc with
        | some t =>
          rw [hshows.file loc t ht] at hfile
          exact ⟨loc, t, rfl, ht, by simpa using hfile.symm⟩
        | none => exact absurd hfile (hshows.get?_ne_file hthere ht c)
      · rw [houtside (s :: loc) (by simpa using hs), hmade.empty] at hfile
        cases hfile
  · rintro ⟨loc, t, rfl, ht, rfl⟩
    rw [happend]
    exact hshows.file loc t ht

end PlanParts

end AppScaffold
