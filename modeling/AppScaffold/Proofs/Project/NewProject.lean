import AppScaffold.Proofs.Project.Growth
import Mathlib.Data.List.Basic
import Mathlib.Tactic.Common

/-!
# New projects

Requests that are accepted in a new project all succeed, and together they settle what is in it: each
file was made by the first request that has it, and each registry has the entries of all requests in
order. This holds for any number of requests, and wherever the root of the project is, as long as the
directory of the sources can be made.
-/

namespace AppScaffold

open Disk Volume

/-- What is checked about a screen is all that the disk means to the preparation of a request. -/
theorem prepare_congr {v w : Volume} {root : Path} {r : Request}
    (h : Settings.checkScreen {} v root r = Settings.checkScreen {} w root r) :
    Settings.prepare {} v root r = Settings.prepare {} w root r := by
  rw [Settings.prepare, Settings.prepare, h]

namespace Begun

variable {v w : Volume} {root : Path} {src : Location} {r : Request}

/-- Where there are no screens, none gets network functions. -/
theorem archetype_ne_screenApi (hf : Begun v root w src) (hr : r.Reaches root) {tree : FileTree}
    {entry : Option Template.RegistryEntry}
    (h : Settings.prepare {} v root r = .ok (tree, entry)) : r.archetype ≠ .screenApi := by
  intro harchetype
  obtain ⟨-, hregistration, -, hadded, hscreen⟩ := Settings.of_prepare h
  rw [harchetype] at hadded
  cases entry with
  | none => exact Template.registryEntry_ne_none (.inr rfl) hadded
  | some e =>
    obtain ⟨screen, haggregator, hgiven⟩ := Template.exists_screenApi hadded
    rw [Option.map_some] at hregistration
    have hident := (Request.given_of_registration hregistration haggregator).2
    have hreach : Follows (sources root) (["Screens", screen] ++ ["api.js"]) := by
      have hreach := hr.registry _ hregistration
      rwa [haggregator] at hreach
    obtain ⟨hslash, hne⟩ := Template.notMem_of_isIdentifier hident
    have hdir : (root.join ⟨"src", ["Screens"]⟩).join (.ofText screen) =
        (sources root).extend ["Screens", screen] := by
      rw [Path.ofText_of_notMem hslash,
        Path.join_join_src root (hreach.proper "Screens" List.mem_cons_self) hne, Path.join_src]
    have hmissing := (hf.toMade.find?_eq hreach.of_append (List.cons_ne_nil _ _)).1
    rw [Settings.checkScreen, if_pos harchetype, hgiven] at hscreen
    simp only [hdir, isDir, hmissing, Bool.false_eq_true, if_false] at hscreen
    cases hscreen

/-- A file is placed as if the directory of the sources had been made first. -/
theorem placeFile_congr (hf : Begun v root w src) {loc : Location} (hloc : IsSite loc)
    (hreach : Follows (sources root) loc) (t : String) :
    v.placeFile (root.join ⟨"src", loc⟩) t = w.placeFile (root.join ⟨"src", loc⟩) t := by
  obtain ⟨dirs, file, rfl, hdirs, -⟩ := hloc.split
  rw [Path.join_src, placeFile, placeFile, hf.toMade.mkdirParent_eq hreach hdirs]

/-- A registry is made as if the directory of the sources had been made first. -/
theorem register_congr (hf : Begun v root w src) {a : Aggregator} (ha : a.IsNamed)
    (hreach : Follows (sources root) a.location) {e : Script.Entry} (he : a.Takes e) :
    Settings.register {} a v root e = Settings.register {} a w root e := by
  have hplace := Aggregator.isSite ha
  obtain ⟨hv, hw⟩ := hf.toMade.find?_eq hf.room (List.cons_ne_nil _ _)
  have hpathV := aggregatorPath_eq hv ha hreach
  have hpathW := aggregatorPath_eq hw ha hreach
  have hne : a.location ≠ [] := by
    obtain ⟨dirs, file, heq, -⟩ := hplace.split
    simp [heq]
  obtain ⟨hmissingV, hmissingW⟩ := hf.toMade.find?_eq hreach hne
  rw [← Path.join_src] at hmissingV hmissingW
  have hnoneV : v.exists? (root.join ⟨"src", a.location⟩) = false := by
    rw [exists?, hmissingV]
    rfl
  have hnoneW : w.exists? (root.join ⟨"src", a.location⟩) = false := by
    rw [exists?, hmissingW]
    rfl
  have hpatch : Settings.patchAggregator {} a v root e = Settings.patchAggregator {} a w root e := by
    simp only [Settings.patchAggregator, Settings.aggregatorText, hpathV, hpathW, hnoneV, hnoneW,
      Bool.false_eq_true, if_false]
  have hentries : ∀ e ∈ ([] : List Script.Entry), a.Takes e := List.forall_mem_nil _
  obtain ⟨y, hregister, -⟩ := hf.register_eq (Shows.of_vacant hf.toVacant)
    (fun loc hloc => absurd rfl hloc) ha hreach hentries rfl he
  cases hpatched : Settings.patchAggregator {} a w root e with
  | error problem =>
    rw [Settings.register_eq_iff.mpr (.unpatched hpatched)] at hregister
    cases hregister
  | ok patched =>
    have hpath := (Settings.patchAggregator_eq_ok {} hpatched).1
    rw [hpathW] at hpath
    have hwrite : patched.write v = patched.write w := by
      obtain ⟨dirs, file, hsplit, hdirs, -⟩ := hplace.split
      rw [hsplit] at hreach hpath
      rw [PatchedFile.write, PatchedFile.write, hpath, Path.join_src,
        hf.toMade.mkdirParent_eq hreach hdirs]
    rw [Settings.register_eq {} hpatched, Settings.register_eq {} (hpatch.trans hpatched), hwrite]

/-- The first request does the same as if the directory of the sources had been made first. -/
theorem generate_congr (hf : Begun v root w src) (hr : r.Reaches root)
    (hok : ∃ o, (Settings.generate {} v root r).1 = .ok o) :
    Settings.generate {} v root r = Settings.generate {} w root r := by
  obtain ⟨tree, entry, hprepare⟩ := (Settings.exists_outcome_iff {} v root r).mp hok
  obtain ⟨htree, hregistration, hsome, -, -⟩ := Settings.of_prepare hprepare
  have hfiles := Request.files_eq htree
  have hscreen : Settings.checkScreen {} v root r = Settings.checkScreen {} w root r := by
    have hne := hf.archetype_ne_screenApi hr hprepare
    rw [Settings.checkScreen, Settings.checkScreen, if_neg hne, if_neg hne]
  have hprepareW := (prepare_congr hscreen).symm.trans hprepare
  obtain ⟨hv, hw⟩ := hf.toMade.find?_eq hf.room (List.cons_ne_nil _ _)
  delta Settings.generate
  rw [hprepare, hprepareW]
  simp only [directory_eq hv, directory_eq hw, materialize]
  cases hmade : tree.files with
  | cons f fs =>
    have hmem : (f.location r.archetype, f.content) ∈ r.files := by
      rw [hfiles, hmade]
      exact List.mem_cons_self
    have hreach := hr.files _ (List.mem_map_of_mem hmem)
    rw [placeFiles, placeFiles, join_path root hreach,
      hf.placeFile_congr (Request.isSite_of_mem_files hmem) hreach]
  | nil =>
    obtain ⟨e, rfl⟩ := Option.ne_none_iff_exists'.mp (hsome hmade)
    simp only [placeFiles]
    rw [hf.register_congr (Request.isNamed_aggregator hregistration) (hr.registry _ hregistration)
      (Request.takes hregistration)]

variable {x : Volume} {qs rs : List Request}

/-- Requests that are accepted each do what is to be done after those before them. -/
theorem generateAll_eq (hf : Begun v root w src) (hrs : ∀ r ∈ rs, r.Reaches root)
    (h : Shows w src (contents qs) x)
    (hok : ∀ result ∈ (Settings.generateAll {} x root rs).1, ∃ o, result.2 = .ok o) :
    (∀ (i : Nat) (r : Request), rs[i]? = some r → (Settings.generateAll {} x root rs).1[i]? =
      some (r.archetype, .ok (outcomeAfter root (qs ++ rs.take i) r))) ∧
    Shows w src (contents (qs ++ rs)) (Settings.generateAll {} x root rs).2 := by
  induction rs generalizing qs x with
  | nil =>
    refine ⟨fun i r hr => by simp at hr, ?_⟩
    rw [List.append_nil]
    exact h
  | cons r rs ih =>
    simp only [Settings.generateAll, List.mem_cons, forall_eq_or_imp] at hok ⊢
    obtain ⟨hfirst, hrest⟩ := hok
    obtain ⟨y, hgenerate, hy⟩ := hf.generate_eq (hrs r List.mem_cons_self) h hfirst
    rw [hgenerate] at hrest ⊢
    obtain ⟨hresults, hshows⟩ := ih (fun q hq => hrs q (List.mem_cons_of_mem _ hq)) hy hrest
    rw [List.append_assoc, List.singleton_append] at hshows
    refine ⟨fun i q hq => ?_, hshows⟩
    cases i with
    | zero =>
      obtain rfl := Option.some.inj hq
      rw [List.take_zero, List.append_nil]
      rfl
    | succ i =>
      have hresult := hresults i q hq
      rw [List.append_assoc, List.singleton_append] at hresult
      exact hresult

/-- Requests in a new project do the same as if the directory of the sources had been made first. -/
theorem generateAll_congr (hf : Begun v root w src) (hrs : ∀ r ∈ rs, r.Reaches root) (hne : rs ≠ [])
    (hok : ∀ result ∈ (Settings.generateAll {} v root rs).1, ∃ o, result.2 = .ok o) :
    Settings.generateAll {} v root rs = Settings.generateAll {} w root rs := by
  obtain ⟨r, rs, rfl⟩ := List.exists_cons_of_ne_nil hne
  rw [Settings.generateAll, List.forall_mem_cons] at hok
  rw [Settings.generateAll, Settings.generateAll,
    hf.generate_congr (hrs r List.mem_cons_self) hok.1]

/-- Requests that are accepted in a project that begins settle what is in it. -/
theorem generateAll_shows (hf : Begun v root w src) (hrs : ∀ r ∈ rs, r.Reaches root) (hne : rs ≠ [])
    (hok : ∀ result ∈ (Settings.generateAll {} v root rs).1, ∃ o, result.2 = .ok o) :
    (∀ (i : Nat) (r : Request), rs[i]? = some r → (Settings.generateAll {} v root rs).1[i]? =
      some (r.archetype, .ok (outcomeAfter root (rs.take i) r))) ∧
    Shows w src (contents rs) (Settings.generateAll {} v root rs).2 := by
  have hsame := hf.generateAll_congr hrs hne hok
  rw [hsame] at hok ⊢
  have hnothing : Shows w src (contents []) w := contents_nil ▸ Shows.of_vacant hf.toVacant
  have hall := hf.generateAll_eq hrs hnothing hok
  simp only [List.nil_append] at hall
  exact hall

end Begun

/-- Requests that are accepted on every disk are accepted one after the other. -/
theorem Settings.generateAll_accepts (s : Settings) {root : Path} {rs : List Request}
    (h : ∀ r ∈ rs, ∀ v, ∃ tree entry, s.prepare v root r = .ok (tree, entry)) (v : Volume) :
    ∀ result ∈ (s.generateAll v root rs).1, ∃ o, result.2 = .ok o := by
  induction rs generalizing v with
  | nil => exact fun result hresult => absurd hresult List.not_mem_nil
  | cons r rs ih =>
    intro result hresult
    rw [generateAll] at hresult
    rcases List.mem_cons.mp hresult with rfl | hresult
    · exact (s.exists_outcome_iff v root r).mpr (h r List.mem_cons_self v)
    · exact ih (fun q hq => h q (List.mem_cons_of_mem _ hq)) _ result hresult

/-- An empty working directory is an empty directory. -/
theorem made_here : Made ⟨⟨[]⟩, []⟩ ⟨⟨[]⟩, []⟩ ⟨".", []⟩ [] := by
  refine made_of_vacant ⟨⟨⟨fun s hs => (by cases hs), fun _ => by decide⟩, by decide, ?_, rfl⟩,
    fun _ _ => rfl⟩
  have hsteps : bareSteps ⟨".", []⟩ = [.stay] := by decide
  rw [hsteps, Disk.walk, Disk.walk]
  rfl

/-- Requests that are accepted in a new project succeed, and settle what is in it. Each makes the files
that no request before it has made, and its registry has one entry more afterwards. In the end each
file is as the first request made it, each registry holds the entries of all requests in order, and
there is nothing else. -/
theorem Settings.generateAll_fresh {v w : Volume} {root : Path} {src : Location}
    (hf : Fresh v root w src) {rs : List Request} (hshort : ∀ r ∈ rs, r.IsShort)
    (hok : ∀ result ∈ (generateAll {} v root rs).1, ∃ o, result.2 = .ok o) :
    (∀ (i : Nat) (r : Request), rs[i]? = some r → (outcomeAfter root (rs.take i) r).isSuccess = true ∧
      (generateAll {} v root rs).1[i]? =
        some (r.archetype, .ok (outcomeAfter root (rs.take i) r))) ∧
    (∀ loc t, firstFile rs loc = some t →
      (generateAll {} v root rs).2.disk.get? (src ++ loc) = some (.file (.text t))) ∧
    (∀ a : Aggregator, a.entriesIn rs ≠ [] →
      (generateAll {} v root rs).2.disk.get? (src ++ a.location) =
        some (.file (.text (a.content (a.entriesIn rs))))) ∧
    (rs ≠ [] → Shows w src (contents rs) (generateAll {} v root rs).2) := by
  by_cases hnil : rs = []
  · subst hnil
    refine ⟨fun i r hr => by simp at hr, fun loc t ht => (by cases ht), fun a ha => absurd rfl ha,
      fun hne => absurd rfl hne⟩
  · have hreaches : ∀ r ∈ rs, r.Reaches root := fun r hr => hf.reaches (hshort r hr)
    obtain ⟨hresults, hshows⟩ := hf.toBegun.generateAll_shows hreaches hnil hok
    refine ⟨fun i r hr => ⟨isSuccess_outcomeAfter root _ r, hresults i r hr⟩, fun loc t ht => ?_,
      fun a ha => ?_, fun _ => hshows⟩
    · refine hshows.file loc t ?_
      rw [contents_of_ne, ht]
      rintro a rfl
      rw [firstFile_location] at ht
      cases ht
    · refine hshows.file _ _ ?_
      rw [contents_location, if_neg ha]

/-- A project begins in an empty working directory with a screen and a reducer. -/
theorem generateAll_fresh_here : ∃ w, Fresh ⟨⟨[]⟩, []⟩ ⟨".", []⟩ w ["src"] ∧
    (Settings.generateAll {} ⟨⟨[]⟩, []⟩ ⟨".", []⟩ [Request.screen "Home",
        ⟨.reducer, .ofList [("name", .text "cart")]⟩]).2.disk.get?
        ["src", "Navigation", "screens", "StackScreens.jsx"] =
      some (.file (.text ("import Home from '../../Screens/Home';\n\nexport const stackScreens = [\n" ++
        "    \x7b\n        name: \"Home\",\n        component: Home,\n" ++
        "        options: \x7b headerShown: false \x7d,\n    \x7d,\n];\n"))) := by
  obtain ⟨w, hf⟩ := exists_fresh made_here (by decide)
  have hshort : ∀ r ∈ [Request.screen "Home", ⟨.reducer, .ofList [("name", .text "cart")]⟩],
      r.IsShort := by
    intro r hr parameter hparameter name hname
    simp only [List.mem_cons, List.not_mem_nil, or_false] at hr hparameter
    rcases hr with rfl | rfl
    · rcases hparameter with rfl | rfl
      · obtain rfl := Option.some.inj hname
        decide
      · cases hname
    · rcases hparameter with rfl | rfl
      · obtain rfl := Option.some.inj hname
        decide
      · cases hname
  have hprepare : ∀ r ∈ [Request.screen "Home", ⟨.reducer, .ofList [("name", .text "cart")]⟩], ∀ v,
      ∃ tree entry, Settings.prepare {} v ⟨".", []⟩ r = .ok (tree, entry) := by
    intro r hr v
    simp only [List.mem_cons, List.not_mem_nil, or_false] at hr
    rcases hr with rfl | rfl
    · exact ⟨_, _, rfl⟩
    · exact ⟨_, _, rfl⟩
  have hok := Settings.generateAll_accepts {} hprepare ⟨⟨[]⟩, []⟩
  obtain ⟨-, -, hregistry, -⟩ := Settings.generateAll_fresh hf hshort hok
  have hscreens := hregistry .screenRegistry (by decide +kernel)
  refine ⟨w, hf, hscreens.trans ?_⟩
  rw [Option.some.injEq, Entry.file.injEq, Content.text.injEq]
  decide +kernel

/-- The directories of a screen have names. -/
theorem isName_of_home : ∀ s ∈ ["Screens", "Home"], IsName s := by
  intro s hs
  simp only [List.mem_cons, List.not_mem_nil, or_false] at hs
  rcases hs with rfl | rfl
  all_goals decide

/-- A screen is accepted also where its directory cannot be made, and its files are then missing. -/
theorem exists_problem {v u : Volume} {root : Path} {e : Fault}
    (h : v.mkdirAll ((sources root).extend ["Screens", "Home"]) = (.error e, u)) :
    ∃ o, (Settings.generate {} v root (Request.screen "Home")).1 = .ok o ∧
      o.materializeProblem ≠ none := by
  obtain ⟨tree, entry, hprepare, f, fs, hfiles, hpath⟩ : ∃ tree entry,
      Settings.prepare {} v root (Request.screen "Home") = .ok (tree, entry) ∧
        ∃ f fs, tree.files = f :: fs ∧ f.path = ⟨"Home", ["Home.jsx"]⟩ :=
    ⟨_, _, rfl, _, _, rfl, rfl⟩
  have hfile : IsName "Home.jsx" := by decide
  have hjoin : (root.join ⟨"src", ["Screens"]⟩).join f.path =
      (sources root).extend (["Screens", "Home"] ++ ["Home.jsx"]) := by
    rw [hpath, Path.join_join_src root (by decide) (by decide), Path.join_src]
    rfl
  have hparent := (Path.isTrimmed_sources root).parent_extend isName_of_home hfile
  have hmade :
      v.materialize (root.join (Layout.directory {} v root (Request.screen "Home").archetype)) tree =
        (({}, some (.directoryCreationFailed ((sources root).extend ["Screens", "Home"]) e)), u) := by
    have hunpaved := mkdirParent_eq_iff.mpr (.unpaved hparent h)
    change v.materialize (root.join ⟨"src", ["Screens"]⟩) tree = _
    rw [materialize, hfiles]
    refine placeFiles_eq_iff.mpr (.stopped ?_)
    rw [hjoin]
    exact placeFile_eq_iff.mpr (.unpaved hunpaved)
  rw [Settings.generate_eq_iff.mpr (.stopped hprepare hmade)]
  exact ⟨_, rfl, by simp⟩

/-- Where the path of the root is too long no screen can be made, whatever is on the disk. -/
theorem exists_problem_of_long (v : Volume) {root : Path}
    (h : pathLimit ≤ (sources root).text.utf8ByteSize + 13) :
    ∃ o, (Settings.generate {} v root (Request.screen "Home")).1 = .ok o ∧
      o.materializeProblem ≠ none := by
  have htrimmed := (Path.isTrimmed_sources root).extend isName_of_home
  have hlong : pathLimit ≤ ((sources root).extend ["Screens", "Home"]).text.utf8ByteSize := by
    have hdirs : width ["Screens", "Home"] = 13 := by decide
    rwa [Path.utf8ByteSize_text_extend, hdirs]
  obtain ⟨e, he, hadmissible⟩ := exists_fault_of_long htrimmed.ne_empty hlong
  refine exists_problem (mkdirAll_of_error htrimmed he fun follow => ?_)
  rw [locate, hadmissible]

/-- A way into a file leads nowhere. -/
theorem walk_into_file {d : Disk} {name : String} {c : Content} (hname : name.utf8ByteSize ≤ nameLimit)
    (hfile : d.get? [name] = some (.file c)) (follow : Bool) (links : Nat) {rest : List Step}
    (hrest : rest ≠ []) : d.walk follow links [] (.name name :: rest) = .error .notDirectory := by
  rw [walk_file (Nat.not_lt_of_le hname) hfile, if_neg (by simpa using hrest)]

section Dots

variable {n : Nat}

/-- A way that stays where it is ends there. -/
theorem walk_stay (d : Disk) (follow : Bool) (links : Nat) (cur : Location) (n : Nat) :
    d.walk follow links cur (List.replicate n .stay) = .ok (.found cur) := by
  induction n with
  | zero => rw [List.replicate_zero, Disk.walk]
  | succ n ih => rw [List.replicate_succ, Disk.walk, ih]

/-- The size of a path of dots. -/
theorem utf8ByteSize_dots (n : Nat) :
    (Path.mk "." (List.replicate n ".")).text.utf8ByteSize = 2 * n + 1 := by
  have hdot : ".".utf8ByteSize = 1 := by decide
  have hwidth : ∀ n, width (List.replicate n ".") = 2 * n := by
    intro n
    induction n with
    | zero => rfl
    | succ n ih =>
      rw [List.replicate_succ, width, ih, hdot]
      omega
  rw [Path.utf8ByteSize_text, hwidth]
  simp only [hdot]
  omega

/-- A path of dots ends with a dot. -/
theorem getLast?_dots (n : Nat) : (List.replicate n ".").getLast? ≠ some "" := fun hlast =>
  absurd (List.eq_of_mem_replicate (List.mem_of_getLast? hlast)) (by decide)

/-- A path of dots is not empty. -/
theorem dots_ne_empty (n : Nat) : (⟨".", List.replicate n "."⟩ : Path) ≠ Path.empty := fun h =>
  absurd (congrArg Path.first h) (show "." ≠ "" by decide)

/-- A path that begins with dots can be handed to the file system, if it is not too long. -/
theorem admissible_dots {names : List String} (hzero : ∀ s ∈ names, ∀ c ∈ s.toList, c.toNat ≠ 0)
    (hn : 2 * n + 1 + width names < pathLimit) :
    admissible (Path.extend ⟨".", List.replicate n "."⟩ names) = .ok () := by
  have hchars : ¬(Path.extend ⟨".", List.replicate n "."⟩ names).text.toList.any (·.toNat = 0) =
      true := by
    rw [List.any_eq_true, Path.toList_text, Path.extend]
    rintro ⟨c, hc, hc0⟩
    rw [decide_eq_true_eq] at hc0
    simp only [List.mem_append, List.mem_flatMap, List.mem_replicate, List.mem_cons] at hc
    rcases hc with hc | ⟨s, ⟨-, rfl⟩ | hs, rfl | hc⟩
    · exact @ne_zero_of_all ".".toList (by decide) c hc hc0
    · exact absurd hc0 (by decide)
    · exact @ne_zero_of_all ".".toList (by decide) c hc hc0
    · exact absurd hc0 (by decide)
    · exact hzero s hs c hc hc0
  have hne : Path.extend ⟨".", List.replicate n "."⟩ names ≠ Path.empty := fun h =>
    absurd (congrArg Path.first h) (show "." ≠ "" by decide)
  rw [admissible, if_neg hchars, if_neg hne, Path.utf8ByteSize_text_extend, utf8ByteSize_dots,
    if_neg (Nat.not_le_of_lt hn)]

/-- The steps of a path of dots stay where it starts. -/
theorem bareSteps_dots (n : Nat) :
    bareSteps ⟨".", List.replicate n "."⟩ = List.replicate (n + 1) .stay := by
  have hstep : segmentStep "." = some .stay := by decide
  rw [bareSteps, ← List.replicate_succ, List.filterMap_replicate_of_some hstep]

/-- A path of dots leads to the directory from which it starts. -/
theorem find?_dots (hn : 2 * n + 1 < pathLimit) :
    Volume.find? ⟨⟨[]⟩, []⟩ ⟨".", List.replicate n "."⟩ = .ok .dir := by
  have hadmissible : admissible ⟨".", List.replicate n "."⟩ = .ok () := by
    rw [← Path.extend_nil ⟨".", List.replicate n "."⟩]
    exact admissible_dots (List.forall_mem_nil _) hn
  have hslash : endsWithSlash ⟨".", List.replicate n "."⟩ = false := by
    rw [endsWithSlash, decide_eq_false_iff_not]
    exact getLast?_dots n
  rw [find?, locate, hadmissible, Disk.steps, bareSteps_dots, hslash]
  simp only [Bool.false_eq_true, if_false, List.append_nil, walk_stay]
  split_ifs <;> rfl

/-- A relative path is followed from a path of dots. -/
theorem join_dots (n : Nat) {q : Path} (hq : q.isAbsolute = false) :
    Path.join ⟨".", List.replicate n "."⟩ q =
      Path.extend ⟨".", List.replicate n "."⟩ (q.first :: q.rest) := by
  rw [Path.join, hq, Bool.false_or, if_neg (by simpa using dots_ne_empty n), if_neg (getLast?_dots n)]
  rfl

end Dots

/-- Not every root will do: nothing can be made below a file, and where the path of an empty directory
is too long no screen can be made in it. -/
theorem exists_problem_of_root :
    (Volume.exists? ⟨⟨[(["f"], .file (.text "x"))]⟩, []⟩ ⟨"f", ["p"]⟩ = false ∧
      ∃ o, (Settings.generate {} ⟨⟨[(["f"], .file (.text "x"))]⟩, []⟩ ⟨"f", ["p"]⟩
        (Request.screen "Home")).1 = .ok o ∧ o.materializeProblem ≠ none) ∧
    Volume.find? ⟨⟨[]⟩, []⟩ ⟨".", List.replicate 2040 "."⟩ = .ok .dir ∧
      ∃ o, (Settings.generate {} ⟨⟨[]⟩, []⟩ ⟨".", List.replicate 2040 "."⟩
        (Request.screen "Home")).1 = .ok o ∧ o.materializeProblem ≠ none := by
  constructor
  · have hfile : Disk.get? ⟨[(["f"], .file (.text "x"))]⟩ ["f"] = some (.file (.text "x")) := rfl
    constructor
    · have hsteps : Disk.steps ⟨"f", ["p"]⟩ = [.name "f", .name "p"] := by decide
      have hadmissible : admissible ⟨"f", ["p"]⟩ = .ok () := by decide
      have habsolute : Path.isAbsolute ⟨"f", ["p"]⟩ = false := by decide
      rw [exists?, find?, locate, hadmissible, hsteps, habsolute]
      simp only [Bool.false_eq_true, if_false,
        walk_into_file (by decide) hfile true linkLimit (List.cons_ne_nil _ _)]
      rfl
    · have hsteps : bareSteps ⟨"f", ["p", "src", "Screens", "Home"]⟩ =
          [.name "f", .name "p", .name "src", .name "Screens", .name "Home"] := by decide
      have hadmissible : admissible ⟨"f", ["p", "src", "Screens", "Home"]⟩ = .ok () := by decide
      have habsolute : Path.isAbsolute ⟨"f", ["p", "src", "Screens", "Home"]⟩ = false := by decide
      have hsources : (sources ⟨"f", ["p"]⟩).extend ["Screens", "Home"] =
          ⟨"f", ["p", "src", "Screens", "Home"]⟩ := by decide
      have htrimmed : Path.IsTrimmed ⟨"f", ["p", "src", "Screens", "Home"]⟩ := by
        refine ⟨fun s hs => ?_, fun hnil => by cases hnil⟩
        obtain rfl := Option.some.inj hs
        decide
      refine exists_problem (hsources ▸ mkdirAll_of_error htrimmed (e := .notDirectory) (by decide) ?_)
      intro follow
      rw [locate, hadmissible, hsteps, habsolute]
      exact walk_into_file (by decide) hfile follow linkLimit (List.cons_ne_nil _ _)
  · constructor
    · exact find?_dots (by decide)
    · refine exists_problem_of_long _ ?_
      have hsrc : width ["src"] = 4 := by decide
      rw [sources, join_dots _ (by decide), Path.utf8ByteSize_text_extend, utf8ByteSize_dots, hsrc,
        pathLimit]
      omega

end AppScaffold
