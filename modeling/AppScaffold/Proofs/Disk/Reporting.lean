import AppScaffold.Proofs.Disk.Occupied
import Mathlib.Data.List.Basic
import Mathlib.Tactic.Common

/-!
# What a report says

The files of a tree are handled in order, up to the first that fails. The report tells apart those that
were made and those that were skipped, both in their order, and it is right also where the work has
ended with a failure: a file was made exactly if nothing was at its path, it holds its text at the end,
and whatever was there before is unchanged.
-/

namespace AppScaffold

open Disk

/-- The report on files that were handled, each with what has become of it. -/
def Report.ofHandled (root : Path) (handled : List (GeneratedFile × Placement)) : Report where
  created := (handled.filter (·.2 = .created)).map fun h => root.join h.1.path
  skipped := (handled.filter (·.2 = .skipped)).map fun h => root.join h.1.path

/-- A file that precedes the others precedes them in the report. -/
theorem Report.ofHandled_cons (root : Path) (f : GeneratedFile) (placement : Placement)
    (handled : List (GeneratedFile × Placement)) :
    ofHandled root ((f, placement) :: handled) =
      (ofHandled root handled).precede (root.join f.path) placement := by
  cases placement <;> rfl

namespace Volume

variable {v w : Volume} {root p : Path} {s : String}

/-- Why a file cannot be placed. -/
inductive Fails (v : Volume) (p : Path) (s : String) : Problem → Prop where
  /-- A directory above it cannot be made. -/
  | directory {dir : Path} {fault : Fault} (parent : p.parent = some dir)
    (failed : (v.mkdirAll dir).1 = .error fault) : Fails v p s (.directoryCreationFailed dir fault)
  /-- The directories above it can be made, and the file cannot. -/
  | file {fault : Fault} (made : (v.mkdirParent p).1 = .ok ())
    (failed : ((v.mkdirParent p).2.createNew p s).1 = .error fault) : Fails v p s (.writeFailed p fault)

/-- A file that cannot be placed leaves nothing but directories above it. -/
theorem fails_of_placeFile {e : Problem} (h : v.placeFile p s = (.error e, w)) :
    v.Fails p s e ∧ w = (v.mkdirParent p).2 := by
  cases placeFile_eq_iff.mp h with
  | unpaved hparent =>
    refine ⟨?_, by rw [hparent]⟩
    cases mkdirParent_eq_iff.mp hparent with
    | unpaved hdir hall => exact .directory hdir (by rw [hall])
  | @unmade _ u _ hparent hnew =>
    refine ⟨.file (by rw [hparent]) (by rw [hparent, hnew]), ?_⟩
    rw [hparent]
    rcases createNew_result u p s with ⟨e, hresult⟩ | ⟨hresult, -⟩ | ⟨x, hresult, -⟩
    all_goals
      rw [hresult] at hnew
      cases hnew
    rfl

/-- What is true of a file that was handled, the volume being `v` when it was reached. -/
structure Handles (v : Volume) (p : Path) (placement : Placement) : Prop where
  /-- The directories above it have been made. -/
  parents : (v.mkdirParent p).1 = .ok ()
  /-- It was made exactly if nothing was at its path then. -/
  made_iff : placement = .created ↔ ¬(v.mkdirParent p).2.Occupied p
  /-- It was made only if nothing had been there already when it was reached. -/
  free : placement = .created → ¬v.Occupied p
  /-- If its path does not go up, this is also enough. -/
  free_iff : .up ∉ bareSteps p → (placement = .created ↔ ¬v.Occupied p)

/-- A file that was placed was handled; if it was made, it can be read. -/
theorem handles_of_placeFile (h : v.IsNested) {placement : Placement}
    (hplaced : v.placeFile p s = (.ok placement, w)) :
    v.Handles p placement ∧ (placement = .created → w.readText p = .ok s) := by
  cases placeFile_eq_iff.mp hplaced with
  | @placed _ u _ hparent hnew =>
    have hgrown := mkdirParent_grown v p
    rw [hparent] at hgrown
    have hresult : (placement = .created ↔ ¬u.Occupied p) ∧
        (placement = .created → w.readText p = .ok s) := by
      rcases createNew_result u p s with ⟨e, heq⟩ | ⟨heq, hoccupied⟩ | ⟨y, heq, hfree, htext⟩
      · cases heq.symm.trans hnew
      · cases heq.symm.trans hnew
        simp [hoccupied]
      · cases heq.symm.trans hnew
        simp [hfree, htext]
    have hfree : placement = .created → ¬v.Occupied p := fun hmade hoccupied =>
      hresult.1.mp hmade (hgrown.occupied hoccupied)
    refine ⟨⟨by rw [hparent], by rw [hparent]; exact hresult.1, hfree, fun hup => ?_⟩, hresult.2⟩
    rw [hresult.1, occupied_mkdirParent_iff h hup hparent]

/-- What is true of work on files below a directory, of which some were handled. -/
structure Accounts (v : Volume) (root : Path) (files : List GeneratedFile)
    (handled : List (GeneratedFile × Placement)) (result : (Report × Option Problem) × Volume) :
    Prop where
  /-- The files that were handled come first. -/
  first : handled.map Prod.fst <+: files
  /-- The report tells apart those that were made and those that were skipped. -/
  report : result.1.1 = .ofHandled root handled
  /-- Without a problem all files were handled. -/
  complete : result.1.2 = none → handled.map Prod.fst = files
  /-- A problem is that of the next file. At most directories above it are new since the files before
  it were handled. -/
  stopped : ∀ e, result.1.2 = some e → ∃ f later, files = handled.map Prod.fst ++ f :: later ∧
    (v.placeFiles root (handled.map Prod.fst)).2.Fails (root.join f.path) f.content e ∧
    result.2 = ((v.placeFiles root (handled.map Prod.fst)).2.mkdirParent (root.join f.path)).2
  /-- Each file was handled after those before it. -/
  placed : ∀ front f placement back, handled = front ++ (f, placement) :: back →
    (v.placeFiles root (front.map Prod.fst)).2.Handles (root.join f.path) placement
  /-- At the end every file that was made holds exactly its text. -/
  contents : ∀ f, (f, .created) ∈ handled → result.2.readText (root.join f.path) = .ok f.content
  /-- Every file that was there before is there unchanged. -/
  kept : ∀ loc c, v.disk.get? loc = some (.file c) → result.2.disk.get? loc = some (.file c)

/-- Behind a file that was placed the work goes on. -/
theorem placeFiles_cons {f : GeneratedFile} {placement : Placement}
    (h : v.placeFile (root.join f.path) f.content = (.ok placement, w)) (files : List GeneratedFile) :
    v.placeFiles root (f :: files) =
      (((w.placeFiles root files).1.1.precede (root.join f.path) placement,
        (w.placeFiles root files).1.2), (w.placeFiles root files).2) := by
  rw [placeFiles, h]

/-- Work on files can be accounted for. -/
theorem exists_accounts (h : v.IsNested) (root : Path) (files : List GeneratedFile) :
    ∃ handled, v.Accounts root files handled (v.placeFiles root files) := by
  have hkept : ∀ loc c, v.disk.get? loc = some (.file c) →
      (v.placeFiles root files).2.disk.get? loc = some (.file c) := fun _ _ =>
    (placeFiles_grown v root files).within _ _
  have hresult := v.placeFiles_placesOf root files
  generalize v.placeFiles root files = result at hresult hkept ⊢
  induction hresult with
  | done => exact ⟨[], List.prefix_rfl, rfl, fun _ => rfl, nofun, by simp, by simp, hkept⟩
  | @stopped v w f files e hplaced =>
    obtain ⟨hfails, hw⟩ := fails_of_placeFile hplaced
    refine ⟨[], List.nil_prefix, rfl, nofun, ?_, by simp, by simp, hkept⟩
    rintro e' he
    obtain rfl := Option.some.inj he
    exact ⟨f, files, rfl, hfails, hw⟩
  | @placed v w x f files placement report problem hplaced hrest ih =>
    obtain ⟨hhandles, htext⟩ := handles_of_placeFile h hplaced
    have hw : w.IsNested := by
      have hw := IsNested.additive.placeFile v (root.join f.path) f.content h
      rwa [hplaced] at hw
    have hgrown := placeFiles_grown w root files
    rw [placeFiles_eq_iff.mpr hrest] at hgrown
    obtain ⟨handled, haccounts⟩ := ih hw fun _ _ => hgrown.within _ _
    refine ⟨(f, placement) :: handled, ?_, ?_, ?_, ?_, ?_, ?_, hkept⟩
    · exact (List.prefix_cons_inj f).mpr haccounts.first
    · rw [Report.ofHandled_cons, ← haccounts.report]
    · intro hnone
      rw [List.map_cons, haccounts.complete hnone]
    · rw [List.map_cons, placeFiles_cons hplaced]
      intro e he
      obtain ⟨g, later, hfiles, hrest⟩ := haccounts.stopped e he
      exact ⟨g, later, by rw [List.cons_append, ← hfiles], hrest⟩
    · rintro (_ | ⟨first, front⟩) g placement' back heq
      · cases heq
        exact hhandles
      · cases heq
        rw [List.map_cons, placeFiles_cons hplaced]
        exact haccounts.placed front g placement' back rfl
    · intro g hg
      rcases List.mem_cons.mp hg with hsame | hg
      · cases hsame
        exact hgrown.readText (htext rfl)
      · exact haccounts.contents g hg

/-- Making the files of a tree can be accounted for. -/
theorem materialize_accounts (h : v.IsNested) (root : Path) (tree : FileTree) :
    ∃ handled, v.Accounts root tree.files handled (v.materialize root tree) :=
  exists_accounts h root tree.files

section Small

-- what the operations on a small disk come to is found by following them
attribute [local simp] placeFiles placeFile createNew createFile exists? mkdirParent mkdirAll chain
  mkdirChain mkdir isDir find? Volume.set Disk.set Disk.get? locate walk Disk.steps bareSteps
  segmentStep Path.join Path.parent Path.ofReversed Path.idle Path.isAbsolute Path.empty
  Report.precede List.lookup_cons Except.isOk Except.toBool

/-- A disk with a link that leads nowhere. -/
def danglingLink : Volume := ⟨⟨[(["l"], .link ⟨"m", []⟩)]⟩, []⟩

/-- A file is not made through a link, and it is reported as skipped. -/
theorem materialize_accounts_link : danglingLink.IsNested ∧
    (danglingLink.materialize ⟨".", []⟩ ⟨[⟨⟨"l", []⟩, "a", ""⟩]⟩).1 =
      ({ skipped := [⟨".", ["l"]⟩] }, none) ∧
    ∃ handled, danglingLink.Accounts ⟨".", []⟩ [⟨⟨"l", []⟩, "a", ""⟩] handled
      (danglingLink.materialize ⟨".", []⟩ ⟨[⟨⟨"l", []⟩, "a", ""⟩]⟩) := by
  have hnested : danglingLink.IsNested := ⟨nested_of_entries (by decide), rfl⟩
  refine ⟨hnested, ?_, materialize_accounts hnested ⟨".", []⟩ ⟨[⟨⟨"l", []⟩, "a", ""⟩]⟩⟩
  have hadmissible : ∀ rest ∈ [["l"], []], admissible ⟨".", rest⟩ = .ok () := by decide
  simp only [List.forall_mem_cons] at hadmissible
  simp +decide [danglingLink, materialize, hadmissible]

/-- Two files, the second of which has a path that goes up from a directory to the first one. -/
def across : FileTree := ⟨[⟨⟨"a", []⟩, "t", ""⟩, ⟨⟨"x", ["..", "a"]⟩, "t", ""⟩]⟩

/-- A file may be skipped at whose path nothing was when it was reached: the path goes up from a
directory that has to be made first, and leads to an earlier file then. -/
theorem exists_skipped_of_free :
    (Volume.materialize ⟨⟨[]⟩, []⟩ ⟨".", []⟩ across).1 =
      (⟨[⟨".", ["a"]⟩], [⟨".", ["x", "..", "a"]⟩]⟩, none) ∧
    ¬(Volume.placeFiles ⟨⟨[]⟩, []⟩ ⟨".", []⟩ (across.files.take 1)).2.Occupied
      ⟨".", ["x", "..", "a"]⟩ := by
  have hadmissible : ∀ rest ∈ [["a"], ["x"], ["x", ".."], ["x", "..", "a"], []],
      admissible ⟨".", rest⟩ = .ok () := by decide
  simp only [List.forall_mem_cons] at hadmissible
  constructor
  · simp +decide [across, materialize, hadmissible]
  · simp +decide [across, Occupied, hadmissible]

end Small

end Volume

end AppScaffold
