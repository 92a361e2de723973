import AppScaffold.Proofs.Disk.Showing
import AppScaffold.Proofs.Project.FileTrees
import AppScaffold.Proofs.Project.Templates
import AppScaffold.Proofs.Script.Declaration
import AppScaffold.Request
import AppScaffold.Template
import Mathlib.Data.List.Basic
import Mathlib.Tactic.Common

/-!
# Places in a new project

With the settings that come with the library, each file of an artifact and each registry has its place
below the directory of the sources. Directories are named without dots and files with one, so that no
file is ever where a directory is needed, and the files of artifacts are never where registries are.
-/

namespace AppScaffold

/-- The directory below the sources in which the files of an archetype lie. -/
def Archetype.home : Archetype → String
  | .screen | .loginScreen | .screenApi => "Screens"
  | .component => "components"
  | .reducer | .store => "Redux"
  | .apiConfig | .apiFunction => "Api"
  | .navigation => "Navigation"

/-- The place of a registry below the sources. -/
def Aggregator.location : Aggregator → Location
  | .screenRegistry => ["Navigation", "screens", "StackScreens.jsx"]
  | .loginRegistry => ["Navigation", "screens", "LoginScreens.jsx"]
  | .reducerRegistry => ["Redux", "root-reducer.js"]
  | .apiFunctions => ["Api", "api.functions.js"]
  | .screenApi screen => ["Screens", screen, "api.js"]

/-- The place of a file of an artifact below the sources. -/
def GeneratedFile.location (f : GeneratedFile) (a : Archetype) : Location :=
  a.home :: f.path.first :: f.path.rest

/-- The files that the templates make for a request, with their places below the sources. -/
def Request.files (r : Request) : List (Location × String) :=
  match Template.instantiate {} r.archetype r.params with
  | .ok tree => tree.files.map fun f => (f.location r.archetype, f.content)
  | .error _ => []

/-- What a request adds to a registry; its import is below the sources. -/
def Request.registration (r : Request) : Option Template.RegistryEntry :=
  match Template.registryEntry r.archetype r.params with
  | .ok entry => entry.map fun e =>
      { e with entry := e.entry.rootedAt ⟨"src", [r.archetype.home]⟩ }
  | .error _ => none

/-- The names in a request are short enough for file names to be made of them. -/
def Request.IsShort (r : Request) : Prop :=
  ∀ parameter ∈ ["name", "screen"], ∀ name, r.params.text parameter = some name →
    name.utf8ByteSize ≤ 200

/-- A place for a file: directories without dots, and then a name with one. -/
structure IsPlace (loc : Location) : Prop where
  /-- The names are names, and there is a directory among them. -/
  split : ∃ dirs file, loc = dirs ++ [file] ∧ dirs ≠ [] ∧
    (∀ d ∈ dirs, IsName d ∧ '.' ∉ d.toList) ∧ IsName file ∧ '.' ∈ file.toList
  /-- The path is not too long. -/
  short : width loc ≤ 422
  /-- It is not below the directory that could be taken for that of the state. -/
  state : loc.head? ≠ some "redux"

/-- The parts of a place are names. -/
theorem IsPlace.isName {loc : Location} (h : IsPlace loc) {s : String} (hs : s ∈ loc) : IsName s := by
  obtain ⟨dirs, file, rfl, -, hdirs, hfile, -⟩ := h.split
  rcases List.mem_append.mp hs with hs | hs
  · exact (hdirs s hs).1
  · rw [List.mem_singleton.mp hs]
    exact hfile

/-- A place for a file, whatever the size of its names. -/
structure IsSite (loc : Location) : Prop where
  /-- Directories without dots lead to a name with one. -/
  split : ∃ dirs file, loc = dirs ++ [file] ∧ dirs ≠ [] ∧ (∀ d ∈ dirs, '.' ∉ d.toList) ∧
    '.' ∈ file.toList
  /-- It is not below the directory that could be taken for that of the state. -/
  state : loc.head? ≠ some "redux"

/-- A file can stand at any place when files stand at places only. -/
theorem IsSite.admits {files : Location → Option String} (h : ∀ loc, files loc ≠ none → IsSite loc)
    {loc : Location} (hloc : IsSite loc) : Volume.Admits files loc := by
  -- a file above or below would be a directory of the other place
  have hnot : ∀ {loc loc' : Location}, IsSite loc → IsSite loc' → loc <+: loc' → loc = loc' := by
    intro loc loc' hloc hloc' hpref
    obtain ⟨dirs, file, rfl, -, -, hdot⟩ := hloc.split
    obtain ⟨dirs', file', rfl, -, hdirs', -⟩ := hloc'.split
    refine (List.prefix_concat_iff.mp hpref).resolve_right fun hmore => ?_
    have hmem : file ∈ dirs' := hmore.subset (List.mem_append_right _ (List.mem_singleton.mpr rfl))
    exact hdirs' file hmem hdot
  refine ⟨fun q hq hne => ?_, fun names hnames => ?_⟩
  · by_contra hsome
    exact hne (hnot (h q hsome) hloc hq)
  · by_contra hsome
    have heq := hnot hloc (h _ hsome) (List.prefix_append ..)
    exact hnames (List.append_cancel_left (heq.symm.trans (List.append_nil _).symm))

/-- A text with a character other than dots names an entry, if it is short and has no zero in it. -/
theorem isName_of_mem {s : String} {c : Char} (hc : c ∈ s.toList) (hdot : c ≠ '.')
    (hzero : ∀ d ∈ s.toList, d.toNat ≠ 0) (hshort : s.utf8ByteSize ≤ Disk.nameLimit) : IsName s := by
  have hempty : s ≠ "" := by
    rintro rfl
    simp at hc
  have hone : s ≠ "." := by
    rintro rfl
    exact hdot (by simpa using hc)
  have htwo : s ≠ ".." := by
    rintro rfl
    exact hdot (by simpa using hc)
  refine ⟨?_, hzero, hshort⟩
  rw [Disk.segmentStep, if_neg hempty, if_neg hone, if_neg htwo]

/-- The characters of identifiers are neither dots nor slashes nor zeros. -/
theorem ne_of_isIdentifierTail {c : Char} (h : Name.isIdentifierTail c = true) :
    c ≠ '.' ∧ c ≠ '/' ∧ c.toNat ≠ 0 := by
  refine ⟨?_, ?_, ?_⟩
  · rintro rfl
    exact absurd h (by decide)
  · rintro rfl
    exact absurd h (by decide)
  · intro hzero
    have hc : c = Char.ofNat 0 := by rw [← hzero, Char.ofNat_toNat]
    rw [hc] at h
    exact absurd h (by decide)

/-- An identifier begins with a letter. -/
theorem exists_mem_of_isIdentifier {name : String} (h : Name.isIdentifier name = true) :
    ∃ c ∈ name.toList, Name.isIdentifierTail c = true := by
  cases hchars : name.toList with
  | nil =>
    rw [Name.isIdentifier, hchars] at h
    cases h
  | cons c cs =>
    refine ⟨c, List.mem_cons_self, Script.isIdentifierTail_of_mem h ?_⟩
    rw [hchars]
    exact List.mem_cons_self

namespace Template

/-- A file in a directory of its own. -/
theorem within_eq {dir file : String} (hdir : '/' ∉ dir.toList) (hne : dir ≠ "")
    (hfile : '/' ∉ file.toList) : within dir file = ⟨dir, [file]⟩ := by
  have habsolute : (⟨file, []⟩ : Path).isAbsolute = false := by simp [Path.isAbsolute]
  have hempty : (⟨dir, []⟩ : Path) ≠ Path.empty := fun h => hne (congrArg Path.first h)
  rw [within, Path.ofText_of_notMem hdir, Path.ofText_of_notMem hfile, Path.join, habsolute]
  simp [hempty]

variable {a : Archetype} {p : Parameters} {name : String}

/-- The files in the directory of an artifact. -/
def ownFiles (a : Archetype) (name : String) : List String :=
  if a = .reducer then [name ++ "-reducer.js"]
  else [name ++ ".jsx", name ++ ".style.js", "index.js"]

/-- A file that a template puts into a directory with the name of the artifact. -/
structure IsNamed (a : Archetype) (p : Parameters) (path : Path) (name : String) : Prop where
  /-- The name is given. -/
  given : p.text "name" = some name
  /-- It is an identifier. -/
  identifier : Name.isIdentifier name = true
  /-- The file is called after it, or it is the index. -/
  path : ∃ file ∈ ownFiles a name, path = ⟨name, [file]⟩

/-- An identifier is not empty and has no slash. -/
theorem notMem_of_isIdentifier (h : Name.isIdentifier name = true) : '/' ∉ name.toList ∧ name ≠ "" := by
  refine ⟨fun hmem => ?_, ?_⟩
  · exact (ne_of_isIdentifierTail (Script.isIdentifierTail_of_mem h hmem)).2.1 rfl
  · rintro rfl
    exact absurd h (by decide)

/-- A file with a name after the artifact lies in the directory of the artifact. -/
theorem IsNamed.of_within (hgiven : p.text "name" = some name)
    (hname : Name.isIdentifier name = true) {file : String} (hfile : file ∈ ownFiles a name) :
    IsNamed a p (within name file) name := by
  obtain ⟨hslash, hne⟩ := notMem_of_isIdentifier hname
  have hslash' : '/' ∉ file.toList := by
    rw [ownFiles] at hfile
    split_ifs at hfile
    · rw [List.mem_singleton.mp hfile]
      simp [hslash]
    · simp only [List.mem_cons, List.not_mem_nil, or_false] at hfile
      rcases hfile with rfl | rfl | rfl <;> simp [hslash]
  exact ⟨hgiven, hname, file, hfile, within_eq hslash hne hslash'⟩

/-- The files of a component are named after it. -/
theorem exists_componentTree_eq (hgiven : p.text "name" = some name)
    (hname : Name.isIdentifier name = true) (kind : String) (component styles : List String) :
    ∃ files, componentTree {} name kind component styles = .ofList files ∧ files ≠ [] ∧
      ∀ f ∈ files, ∀ a, a ≠ .reducer → ∃ name, IsNamed a p f.path name := by
  refine ⟨_, rfl, List.cons_ne_nil _ _, fun f hf a ha => ⟨name, ?_⟩⟩
  simp only [List.mem_cons, List.not_mem_nil, or_false] at hf
  rcases hf with rfl | rfl | rfl
  · refine .of_within hgiven hname ?_
    simp [ownFiles, ha, Extensions.componentFile, String.append_assoc]
  · refine .of_within hgiven hname ?_
    simp [ownFiles, ha, Extensions.scriptFile, String.append_assoc]
  · refine .of_within hgiven hname ?_
    simp [ownFiles, ha, Extensions.scriptFile]

/-- Files with fixed names. -/
def fixedNames : List String :=
  ["store.js", "api.config.js", "AppNavigation.jsx", "MainNavigation.jsx", "LoginNavigation.jsx"]

/-- A fixed name is a path of one segment. -/
theorem ofText_fixedName {file : String} (h : file ∈ fixedNames) : Path.ofText file = ⟨file, []⟩ := by
  refine Path.ofText_of_notMem ?_
  simp only [fixedNames, List.mem_cons, List.not_mem_nil, or_false] at h
  rcases h with rfl | rfl | rfl | rfl | rfl <;> decide

/-- What a template makes its tree of: nothing for network functions, else files that are called after
the artifact or have fixed names. -/
structure Makes (a : Archetype) (p : Parameters) (files : List GeneratedFile) : Prop where
  /-- Only network functions have no files. -/
  none : files = [] → a = .apiFunction ∨ a = .screenApi
  /-- The files lie in directories of their own, or they have fixed names. -/
  some : (a.home ∈ ["Screens", "components", "Redux"] ∧ ∀ f ∈ files, ∃ name, IsNamed a p f.path name) ∨
    a.home ∈ ["Redux", "Api", "Navigation"] ∧ ∀ f ∈ files, ∃ file ∈ fixedNames, f.path = .ofText file

/-- A template makes its files from the name of the artifact, or with fixed names. -/
theorem exists_makes {tree : FileTree} (h : instantiate {} a p = .ok tree) :
    ∃ files, tree = .ofList files ∧ Makes a p files := by
  have hsingle : ∀ file ∈ fixedNames, ∀ {t d : String}, ∀ f ∈ [GeneratedFile.mk (.ofText file) t d],
      ∃ file ∈ fixedNames, f.path = .ofText file := by
    intro file hfile t d f hf
    rw [List.mem_singleton.mp hf]
    exact ⟨file, hfile, rfl⟩
  cases treeOf_of_instantiate h with
  | component hgiven hname hasks =>
    have ha : a.home ∈ ["Screens", "components", "Redux"] ∧ a ≠ .reducer := by
      cases hasks with
      | _ => decide
    obtain ⟨files, htree, hne, hnamed⟩ := exists_componentTree_eq hgiven hname _ _ _
    exact ⟨files, htree, fun hnil => absurd hnil hne, .inl ⟨ha.1, fun f hf => hnamed f hf _ ha.2⟩⟩
  | slice hgiven hname =>
    refine ⟨_, rfl, fun hnil => absurd hnil (List.cons_ne_nil _ _), .inl ⟨by decide, fun f hf => ?_⟩⟩
    rw [List.mem_singleton.mp hf]
    refine ⟨_, .of_within hgiven hname ?_⟩
    simp [ownFiles, Extensions.scriptFile, String.append_assoc]
  | store =>
    exact ⟨_, rfl, fun hnil => absurd hnil (List.cons_ne_nil _ _),
      .inr ⟨by decide, hsingle "store.js" (by decide)⟩⟩
  | address =>
    exact ⟨_, rfl, fun hnil => absurd hnil (List.cons_ne_nil _ _),
      .inr ⟨by decide, hsingle "api.config.js" (by decide)⟩⟩
  | functions ha =>
    refine ⟨[], rfl, fun _ => ha, ?_⟩
    rcases ha with rfl | rfl
    · exact .inr ⟨by decide, by simp⟩
    · exact .inl ⟨by decide, by simp⟩
  | navigation =>
    refine ⟨_, rfl, fun hnil => absurd hnil (List.cons_ne_nil _ _), .inr ⟨by decide, fun f hf => ?_⟩⟩
    rcases List.mem_append.mp hf with hf | hf
    · rcases List.mem_cons.mp hf with rfl | hf
      · exact ⟨"AppNavigation.jsx", by decide, rfl⟩
      · exact hsingle "MainNavigation.jsx" (by decide) f hf
    · split_ifs at hf
      · exact hsingle "LoginNavigation.jsx" (by decide) f hf
      · cases hf

end Template

/-- There is no dot in an identifier. -/
theorem notMem_dot_of_isIdentifier {name : String} (h : Name.isIdentifier name = true) :
    '.' ∉ name.toList := fun hdot =>
  (ne_of_isIdentifierTail (Script.isIdentifierTail_of_mem h hdot)).1 rfl

/-- An identifier that is short enough names a directory. -/
theorem isName_of_isIdentifier {name : String} (h : Name.isIdentifier name = true)
    (hshort : name.utf8ByteSize ≤ 200) : IsName name ∧ '.' ∉ name.toList := by
  have htail := fun c hc => ne_of_isIdentifierTail (Script.isIdentifierTail_of_mem (c := c) h hc)
  obtain ⟨c, hc, -⟩ := exists_mem_of_isIdentifier h
  refine ⟨isName_of_mem hc (htail c hc).1 (fun d hd => (htail d hd).2.2) ?_,
    notMem_dot_of_isIdentifier h⟩
  exact hshort.trans (by decide)

/-- The directories of the library have names. -/
theorem isName_of_mem_homes {home : String} (h : home ∈ ["Screens", "components", "Redux", "Api",
    "Navigation", "screens"]) : IsName home ∧ '.' ∉ home.toList ∧ home.utf8ByteSize ≤ 10 := by
  simp only [List.mem_cons, List.not_mem_nil, or_false] at h
  rcases h with rfl | rfl | rfl | rfl | rfl | rfl
  all_goals exact ⟨by decide, by decide, by decide⟩

/-- The files in the directory of an artifact have names. -/
theorem isName_of_mem_ownFiles {a : Archetype} {name file : String}
    (h : Name.isIdentifier name = true) (hshort : name.utf8ByteSize ≤ 200)
    (hfile : file ∈ Template.ownFiles a name) :
    IsName file ∧ '.' ∈ file.toList ∧
      file.utf8ByteSize ≤ name.utf8ByteSize + if a = .reducer then 11 else 9 := by
  obtain ⟨c, hc, hctail⟩ := exists_mem_of_isIdentifier h
  have hcdot := (ne_of_isIdentifierTail hctail).1
  have hzero : ∀ d ∈ name.toList, d.toNat ≠ 0 := fun d hd =>
    (ne_of_isIdentifierTail (Script.isIdentifierTail_of_mem h hd)).2.2
  have hmore : ∀ ending : String, '.' ∈ ending.toList →
      (ending.toList.all fun d => d.toNat != 0) = true → ending.utf8ByteSize ≤ 11 →
        IsName (name ++ ending) ∧ '.' ∈ (name ++ ending).toList ∧
          (name ++ ending).utf8ByteSize = name.utf8ByteSize + ending.utf8ByteSize := by
    intro ending hdot hending hsize
    have hbytes : (name ++ ending).utf8ByteSize = name.utf8ByteSize + ending.utf8ByteSize :=
      String.utf8ByteSize_append
    have hmem : ∀ d, d ∈ (name ++ ending).toList ↔ d ∈ name.toList ∨ d ∈ ending.toList := fun d => by
      rw [String.toList_append, List.mem_append]
    refine ⟨isName_of_mem ((hmem c).mpr (.inl hc)) hcdot (fun d hd => ?_) ?_,
      (hmem _).mpr (.inr hdot), hbytes⟩
    · exact ((hmem d).mp hd).elim (hzero d) (ne_zero_of_all hending d)
    · rw [hbytes, Disk.nameLimit]
      omega
  rw [Template.ownFiles] at hfile
  split_ifs at hfile ⊢
  · rw [List.mem_singleton.mp hfile]
    obtain ⟨hname, hdot, hsize⟩ := hmore "-reducer.js" (by decide) (by decide) (by decide)
    exact ⟨hname, hdot, hsize.le⟩
  · simp only [List.mem_cons, List.not_mem_nil, or_false] at hfile
    rcases hfile with rfl | rfl | rfl
    · obtain ⟨hname, hdot, hsize⟩ := hmore ".jsx" (by decide) (by decide) (by decide)
      refine ⟨hname, hdot, hsize.le.trans (Nat.add_le_add_left (by decide) _)⟩
    · obtain ⟨hname, hdot, hsize⟩ := hmore ".style.js" (by decide) (by decide) (by decide)
      exact ⟨hname, hdot, hsize.le⟩
    · refine ⟨by decide, by decide, ?_⟩
      exact (show "index.js".utf8ByteSize ≤ 9 by decide).trans (Nat.le_add_left _ _)

/-- The files in the directory of an artifact have extensions. -/
theorem mem_dot_of_mem_ownFiles {a : Archetype} {name file : String}
    (hfile : file ∈ Template.ownFiles a name) : '.' ∈ file.toList := by
  rw [Template.ownFiles] at hfile
  split_ifs at hfile
  · rw [List.mem_singleton.mp hfile]
    simp
  · simp only [List.mem_cons, List.not_mem_nil, or_false] at hfile
    rcases hfile with rfl | rfl | rfl
    · simp
    · simp
    · decide

/-- No file in the directory of an artifact is taken for network functions. -/
theorem Template.ne_of_mem_ownFiles {a : Archetype} {name file : String}
    (h : file ∈ Template.ownFiles a name) : file ≠ "api.js" := by
  have hlong : ∀ ending : String, 6 < ending.length → name ++ ending ≠ "api.js" := by
    intro ending hlength heq
    have hsum := congrArg String.length heq
    rw [String.length_append, show "api.js".length = 6 by decide] at hsum
    omega
  rw [Template.ownFiles] at h
  split_ifs at h
  · rw [List.mem_singleton.mp h]
    exact hlong _ (by decide)
  · simp only [List.mem_cons, List.not_mem_nil, or_false] at h
    rcases h with rfl | rfl | rfl
    · intro heq
      have hlast := congrArg (fun s => s.toList.getLast?) heq
      simp at hlast
    · exact hlong _ (by decide)
    · decide

/-- A file in a directory of its own, in one of the directories of the library, has a place. -/
theorem isPlace_three {home name file : String}
    (hhome : home ∈ ["Screens", "components", "Redux", "Api", "Navigation", "screens"])
    (hname : IsName name ∧ '.' ∉ name.toList) (hfile : IsName file ∧ '.' ∈ file.toList)
    (hsum : home.utf8ByteSize + name.utf8ByteSize + file.utf8ByteSize ≤ 419) :
    IsPlace [home, name, file] := by
  obtain ⟨hhomeName, hhomeDot, -⟩ := isName_of_mem_homes hhome
  refine ⟨⟨[home, name], file, rfl, List.cons_ne_nil _ _, ?_, hfile⟩, ?_, ?_⟩
  · intro d hd
    simp only [List.mem_cons, List.not_mem_nil, or_false] at hd
    rcases hd with rfl | rfl
    · exact ⟨hhomeName, hhomeDot⟩
    · exact hname
  · simp only [width]
    omega
  · rw [List.head?_cons, ne_eq, Option.some.injEq]
    rintro rfl
    exact absurd hhome (by decide)

/-- A file with a fixed name, in one of the directories of the library, has a place. -/
theorem isPlace_two {home file : String}
    (hhome : home ∈ ["Screens", "components", "Redux", "Api", "Navigation", "screens"])
    (hfile : IsName file ∧ '.' ∈ file.toList) : IsPlace [home, file] := by
  obtain ⟨hhomeName, hhomeDot, hsize⟩ := isName_of_mem_homes hhome
  have hshort := hfile.1.short
  refine ⟨⟨[home], file, rfl, List.cons_ne_nil _ _, ?_, hfile⟩, ?_, ?_⟩
  · intro d hd
    rw [List.mem_singleton.mp hd]
    exact ⟨hhomeName, hhomeDot⟩
  · simp only [width]
    rw [Disk.nameLimit] at hshort
    omega
  · rw [List.head?_cons, ne_eq, Option.some.injEq]
    rintro rfl
    exact absurd hhome (by decide)

/-- A file in a directory of its own has a place if its name has a dot. -/
theorem isSite_three {home name file : String}
    (hhome : home ∈ ["Screens", "components", "Redux", "Api", "Navigation", "screens"])
    (hname : '.' ∉ name.toList) (hfile : '.' ∈ file.toList) : IsSite [home, name, file] := by
  refine ⟨⟨[home, name], file, rfl, List.cons_ne_nil _ _, ?_, hfile⟩, ?_⟩
  · intro d hd
    simp only [List.mem_cons, List.not_mem_nil, or_false] at hd
    rcases hd with rfl | rfl
    · exact (isName_of_mem_homes hhome).2.1
    · exact hname
  · rw [List.head?_cons, ne_eq, Option.some.injEq]
    rintro rfl
    exact absurd hhome (by decide)

/-- A file in one of the directories of the library has a place if its name has a dot. -/
theorem isSite_two {home file : String}
    (hhome : home ∈ ["Screens", "components", "Redux", "Api", "Navigation", "screens"])
    (hfile : '.' ∈ file.toList) : IsSite [home, file] := by
  refine ⟨⟨[home], file, rfl, List.cons_ne_nil _ _, ?_, hfile⟩, ?_⟩
  · intro d hd
    rw [List.mem_singleton.mp hd]
    exact (isName_of_mem_homes hhome).2.1
  · rw [List.head?_cons, ne_eq, Option.some.injEq]
    rintro rfl
    exact absurd hhome (by decide)

/-- Different registries have different places. -/
theorem Aggregator.location_injective {a b : Aggregator} (h : a.location = b.location) : a = b := by
  cases a <;> cases b <;> simp_all [location]

/-- The screen of a registry of network functions is an identifier and short. -/
def Aggregator.IsShort (a : Aggregator) : Prop :=
  ∀ screen, a = .screenApi screen → Name.isIdentifier screen = true ∧ screen.utf8ByteSize ≤ 200

/-- The screen of a registry of network functions is an identifier. -/
def Aggregator.IsNamed (a : Aggregator) : Prop :=
  ∀ screen, a = .screenApi screen → Name.isIdentifier screen = true

/-- A registry is at a place for a file. -/
theorem Aggregator.isSite {a : Aggregator} (h : a.IsNamed) : IsSite a.location := by
  cases a with
  | screenRegistry | loginRegistry => exact isSite_three (by decide) (by decide) (by decide)
  | reducerRegistry | apiFunctions => exact isSite_two (by decide) (by decide)
  | screenApi screen =>
    exact isSite_three (by decide) (notMem_dot_of_isIdentifier (h screen rfl)) (by decide)

/-- A registry has a place. -/
theorem Aggregator.isPlace {a : Aggregator} (h : a.IsShort) : IsPlace a.location := by
  have hfile : ∀ file ∈ ["StackScreens.jsx", "LoginScreens.jsx", "root-reducer.js", "api.functions.js",
      "api.js"], IsName file ∧ '.' ∈ file.toList := by
    intro file hfile
    simp only [List.mem_cons, List.not_mem_nil, or_false] at hfile
    rcases hfile with rfl | rfl | rfl | rfl | rfl
    all_goals exact ⟨by decide, by decide⟩
  have hscreens : IsName "screens" ∧ '.' ∉ "screens".toList ∧ "screens".utf8ByteSize ≤ 10 :=
    isName_of_mem_homes (by decide)
  cases a with
  | screenRegistry | loginRegistry =>
    exact isPlace_three (by decide) ⟨hscreens.1, hscreens.2.1⟩ (hfile _ (by decide)) (by decide)
  | reducerRegistry | apiFunctions => exact isPlace_two (by decide) (hfile _ (by decide))
  | screenApi screen =>
    obtain ⟨hident, hshort⟩ := h screen rfl
    refine isPlace_three (by decide) (isName_of_isIdentifier hident hshort) (hfile _ (by decide)) ?_
    have hhome : "Screens".utf8ByteSize = 7 := by decide
    have hsize : "api.js".utf8ByteSize = 6 := by decide
    omega

namespace Request

variable {r : Request} {loc : Location} {t : String}

/-- The files of a request are those of its tree. -/
theorem files_eq {tree : FileTree} (h : Template.instantiate {} r.archetype r.params = .ok tree) :
    r.files = tree.files.map fun f => (f.location r.archetype, f.content) := by
  rw [files, h]

/-- A file of a request lies in a directory of its own, or it has a fixed name. -/
theorem location_cases (h : (loc, t) ∈ r.files) :
    (r.archetype.home ∈ ["Screens", "components", "Redux"] ∧ ∃ name file,
      r.params.text "name" = some name ∧ Name.isIdentifier name = true ∧
        file ∈ Template.ownFiles r.archetype name ∧ loc = [r.archetype.home, name, file]) ∨
    r.archetype.home ∈ ["Redux", "Api", "Navigation"] ∧
      ∃ file ∈ Template.fixedNames, loc = [r.archetype.home, file] := by
  cases htree : Template.instantiate {} r.archetype r.params with
  | error e =>
    rw [files, htree] at h
    cases h
  | ok tree =>
    rw [files_eq htree, List.mem_map] at h
    obtain ⟨f, hf, heq⟩ := h
    obtain rfl := (Prod.mk.inj heq).1
    obtain ⟨made, rfl, hmade⟩ := Template.exists_makes htree
    have hmem := FileTree.mem_of_mem_ofList hf
    rcases hmade.some with ⟨hhome, hnamed⟩ | ⟨hhome, hfixed⟩
    · obtain ⟨name, hname⟩ := hnamed f hmem
      obtain ⟨file, hfile, hpath⟩ := hname.path
      refine .inl ⟨hhome, name, file, hname.given, hname.identifier, hfile, ?_⟩
      rw [GeneratedFile.location, hpath]
    · obtain ⟨file, hfile, hpath⟩ := hfixed f hmem
      refine .inr ⟨hhome, file, hfile, ?_⟩
      rw [GeneratedFile.location, hpath, Template.ofText_fixedName hfile]

/-- A file of a request has a place. -/
theorem isPlace_of_mem_files (hshort : r.IsShort) (h : (loc, t) ∈ r.files) : IsPlace loc := by
  rcases location_cases h with ⟨hhome, name, file, hgiven, hident, hfile, rfl⟩ |
    ⟨hhome, file, hfile, rfl⟩
  · have hsize := hshort "name" (by decide) name hgiven
    obtain ⟨hname, hdot, hbytes⟩ := isName_of_mem_ownFiles hident hsize hfile
    refine isPlace_three ?_ (isName_of_isIdentifier hident hsize) ⟨hname, hdot⟩ ?_
    · simp only [List.mem_cons, List.not_mem_nil, or_false] at hhome ⊢
      tauto
    · have hhome' : r.archetype.home.utf8ByteSize ≤ if r.archetype = .reducer then 5 else 10 := by
        cases r.archetype <;> decide
      split_ifs at hbytes hhome'
      · omega
      · omega
  · refine isPlace_two ?_ ?_
    · simp only [List.mem_cons, List.not_mem_nil, or_false] at hhome ⊢
      tauto
    · simp only [Template.fixedNames, List.mem_cons, List.not_mem_nil, or_false] at hfile
      rcases hfile with rfl | rfl | rfl | rfl | rfl
      all_goals exact ⟨by decide, by decide⟩

/-- A file of a request is at a place for a file. -/
theorem isSite_of_mem_files (h : (loc, t) ∈ r.files) : IsSite loc := by
  rcases location_cases h with ⟨hhome, name, file, -, hident, hfile, rfl⟩ |
    ⟨hhome, file, hfile, rfl⟩
  · refine isSite_three ?_ (notMem_dot_of_isIdentifier hident) (mem_dot_of_mem_ownFiles hfile)
    simp only [List.mem_cons, List.not_mem_nil, or_false] at hhome ⊢
    tauto
  · refine isSite_two ?_ ?_
    · simp only [List.mem_cons, List.not_mem_nil, or_false] at hhome ⊢
      tauto
    · simp only [Template.fixedNames, List.mem_cons, List.not_mem_nil, or_false] at hfile
      rcases hfile with rfl | rfl | rfl | rfl | rfl
      all_goals decide

/-- No file of a request is where a registry is. -/
theorem location_ne_of_mem_files (h : (loc, t) ∈ r.files) (a : Aggregator) : loc ≠ a.location := by
  rcases location_cases h with ⟨hhome, name, file, -, -, hfile, rfl⟩ | ⟨hhome, file, hfile, rfl⟩
  · cases a with
    | screenApi screen =>
      intro heq
      rw [Aggregator.location] at heq
      simp only [List.cons.injEq] at heq
      exact Template.ne_of_mem_ownFiles hfile heq.2.2.1
    | screenRegistry | loginRegistry =>
      rw [Aggregator.location]
      intro heq
      rw [(List.cons.inj heq).1] at hhome
      exact absurd hhome (by decide)
    | reducerRegistry | apiFunctions =>
      intro heq
      cases congrArg List.length heq
  · cases a with
    | reducerRegistry | apiFunctions =>
      rw [Aggregator.location]
      intro heq
      simp only [List.cons.injEq, and_true] at heq
      rw [heq.2] at hfile
      exact absurd hfile (by decide)
    | _ =>
      intro heq
      cases congrArg List.length heq

/-- The files of a request have different places. -/
theorem nodup_files (r : Request) : (r.files.map Prod.fst).Nodup := by
  cases htree : Template.instantiate {} r.archetype r.params with
  | error e =>
    rw [files, htree]
    exact List.nodup_nil
  | ok tree =>
    obtain ⟨made, rfl, -⟩ := Template.exists_makes htree
    rw [files_eq htree, List.map_map, List.Nodup, List.pairwise_map]
    refine (FileTree.apart_ofList made).imp fun hne heq => hne ?_
    obtain ⟨hfirst, hrest⟩ := List.cons.inj (List.cons.inj heq).2
    exact congrArg Path.components (Path.mk.injEq .. ▸ ⟨hfirst, hrest⟩)

end Request

end AppScaffold
