import AppScaffold.Proofs.Disk.Filing
import AppScaffold.Proofs.Project.Keeping
import AppScaffold.Proofs.Project.Templates
import Mathlib.Tactic.Common

/-!
# The difference that a request makes

The outcome of a request tells what the request has done to the disk. The files that have changed or
come up are those that are reported as made and the registry, if it has its entry; beside them only
directories are new. A registry that does not get its entry stays as it was when the files were there.

A registry is looked for before the directories above it are made. What is said about a registry
therefore needs its path to go up from nothing but directories.
-/

namespace AppScaffold

open Disk Volume

namespace Template

/-- Network functions are not empty. -/
theorem networkFunctions_ne_nil (name : String) (selection : MethodSelection) :
    (networkFunctions name selection).toList ≠ [] := by
  have hlines : ∀ lines : List String, lines ≠ [] → (Skeleton.text lines).toList ≠ [] := by
    intro lines hlines
    obtain ⟨line, rest, rfl⟩ := List.exists_cons_of_ne_nil hlines
    simp [Skeleton.text]
  refine hlines _ ?_
  cases selection with
  | one m => simp [MethodSelection.methods, Skeleton.networkFunction]
  | all => simp [MethodSelection.methods, Method.all, Skeleton.networkFunction]

/-- What goes to the end of a module is not empty. -/
theorem fragment_ne_nil {a : Archetype} {p : Parameters} {e : RegistryEntry}
    (h : registryEntry a p = .ok (some e)) (hend : e.aggregator.anchor = .fileEnd) :
    e.entry.fragment.toList ≠ [] := by
  cases entryOf_of_registryEntry h with
  | screen | loginScreen | slice => cases hend
  | functions | screenFunctions => exact networkFunctions_ne_nil _ _

end Template

/-- The text of a registry with one more entry; nothing if the place for entries is missing. -/
def Aggregator.withEntry (a : Aggregator) (file : Path) (entry : Script.Entry) (text : String) :
    Option String :=
  (Script.applyPatch text.toList a.anchor entry.fragment.toList
    (entry.importLine.map fun i => (i.render file).toList)).map String.ofList

/-- A registry with one more entry has another text. -/
theorem Aggregator.ne_of_withEntry {a : Aggregator} {file : Path} {entry : Script.Entry}
    {text text' : String} (hfragment : a.anchor = .fileEnd → entry.fragment.toList ≠ [])
    (h : a.withEntry file entry text = some text') : text ≠ text' := by
  obtain ⟨cs, hcs, rfl⟩ := Option.map_eq_some_iff.mp h
  rintro heq
  have hlength := Script.length_lt_of_applyPatch hfragment hcs
  rw [heq, String.toList_ofList] at hlength
  exact absurd hlength (Nat.lt_irrefl _)

namespace Settings

variable {s : Settings} {u v w : Volume} {root : Path} {a : Aggregator} {entry : Script.Entry}

/-- The text to which an entry is added: that of the file at the place of the registry, or the seed if
there is nothing at the end of a path that goes up only from directories. -/
structure Reads (s : Settings) (a : Aggregator) (v : Volume) (root : Path) (text : String)
    (seeded : Bool) : Prop where
  /-- The text of the registry was read. -/
  read : seeded = false →
    v.disk.get? (v.place (root.join (s.aggregatorPath a v root))) = some (.file (.text text))
  /-- The registry begins with its seed. -/
  seed : seeded = true → text = Skeleton.text (a.seed s.layout (s.aggregatorPath a v root))
  /-- There was no registry. -/
  missing : seeded = true → v.Grounded (root.join (s.aggregatorPath a v root)) →
    v.disk.get? (v.place (root.join (s.aggregatorPath a v root))) = none

/-- What comes of adding an entry to a registry. -/
inductive Enters (s : Settings) (a : Aggregator) (v : Volume) (root : Path) (entry : Script.Entry) :
    PatchOutcome → Volume → Prop where
  /-- The registry has its entry. -/
  | patched {w : Volume} (text text' : String) (seeded : Bool) (reads : s.Reads a v root text seeded)
    (entered : a.withEntry (s.aggregatorPath a v root) entry text = some text')
    (written : w.disk.get? (v.place (root.join (s.aggregatorPath a v root))) =
      some (.file (.text text')))
    (rest : ∀ loc, v.place (root.join (s.aggregatorPath a v root)) ≠ loc → Unaltered v w loc) :
    Enters s a v root entry (.patched a (root.join (s.aggregatorPath a v root)) seeded) w
  /-- The registry does not get its entry. -/
  | failed {w : Volume} (problem : Problem)
    (same : v.Grounded (root.join (s.aggregatorPath a v root)) →
      w.disk.get? (v.place (root.join (s.aggregatorPath a v root))) =
        v.disk.get? (v.place (root.join (s.aggregatorPath a v root))))
    (rest : ∀ loc, Unaltered v w loc) : Enters s a v root entry (.failed a problem) w

/-- A registry gets its entry in the text that is read. -/
theorem patchAggregator_withEntry {patched : PatchedFile}
    (h : s.patchAggregator a v root entry = .ok patched) :
    patched.path = root.join (s.aggregatorPath a v root) ∧
      ∃ text, s.aggregatorText a v root = .ok (text, patched.seeded) ∧
        a.withEntry (s.aggregatorPath a v root) entry text = some patched.content := by
  rw [patchAggregator] at h
  simp only [bind, Except.bind] at h
  split at h
  · cases h
  · rename_i read hread
    obtain ⟨text, seeded⟩ := read
    simp only at h
    split at h
    · rename_i cs hcs
      cases h
      exact ⟨rfl, text, hread, Option.map_eq_some_iff.mpr ⟨cs, hcs, rfl⟩⟩
    · cases h

/-- A registry is patched by adding the entry to the text, unless the text has no place for entries. -/
theorem patchAggregator_eq {text : String} {seeded : Bool}
    (h : s.aggregatorText a v root = .ok (text, seeded))
    (entry : Script.Entry) :
    s.patchAggregator a v root entry =
      match a.withEntry (s.aggregatorPath a v root) entry text with
      | some content => .ok ⟨root.join (s.aggregatorPath a v root), content, seeded⟩
      | none => .error (.anchorNotFound (root.join (s.aggregatorPath a v root)) a.anchor.marker) := by
  rw [patchAggregator, h, Aggregator.withEntry]
  simp only [bind, Except.bind]
  split
  · next hcs => rw [hcs, Option.map_some]
  · next hcs => rw [hcs, Option.map_none]

/-- To add an entry nothing is done, or the directories above the registry are made, or a file is written
there as well. -/
theorem register_cases (s : Settings) (a : Aggregator) (v : Volume) (root : Path)
    (entry : Script.Entry) :
    (s.register a v root entry).2 = v ∨
      (s.register a v root entry).2 = (v.mkdirParent (root.join (s.aggregatorPath a v root))).2 ∨
      ∃ t, (s.register a v root entry).2 =
        ((v.mkdirParent (root.join (s.aggregatorPath a v root))).2.writeFile
          (root.join (s.aggregatorPath a v root)) t).2 := by
  cases hpatch : s.patchAggregator a v root entry with
  | error e =>
    rw [register_eq_iff.mpr (.unpatched hpatch)]
    exact .inl rfl
  | ok patched =>
    rw [s.register_eq hpatch, ← (patchAggregator_withEntry hpatch).1]
    have hresult := patched.write_writeOf v
    generalize patched.write v = result at hresult ⊢
    cases hresult with
    | unpaved hmade => exact .inr (.inl (by rw [hmade]))
    | unwritten hmade hwrite | written hmade hwrite =>
      exact .inr (.inr ⟨patched.content, by rw [hmade, hwrite]⟩)

/-- A registry that is written was read at its place, or it was missing. -/
theorem reads_of_written (h : v.IsPlain) {text : String} {seeded : Bool}
    (hread : s.aggregatorText a v root = .ok (text, seeded)) (hgrown : Grown v u) {t : String}
    (hwrite : u.writeFile (root.join (s.aggregatorPath a v root)) t = (.ok (), w)) :
    s.Reads a v root text seeded := by
  simp only [aggregatorText] at hread
  split_ifs at hread with hexists
  · split at hread
    · rename_i t ht
      cases hread
      exact ⟨fun _ => get?_of_readText h.disk.links ht, fun hno => absurd hno Bool.false_ne_true,
        fun hno => absurd hno Bool.false_ne_true⟩
    · cases hread
  · cases hread
    refine ⟨fun hno => absurd hno.symm Bool.false_ne_true, fun _ => rfl, fun _ hgrounded => ?_⟩
    cases hthere : v.disk.get? (v.place (root.join (s.aggregatorPath a v root))) with
    | none => rfl
    | some e =>
      -- the path led to the entry already before the directories above it were made
      have hafter := hgrown.within _ e hthere
      rw [← hgrown.place_eq] at hafter
      rcases writeFile_cases (hgrown.links h.disk.links) (root.join (s.aggregatorPath a v root)) t with
        ⟨problem, herror⟩ | ⟨-, hnone | ⟨⟨c, hc⟩, hfound⟩⟩
      · rw [hwrite] at herror
        cases herror
      · rw [hafter] at hnone
        cases hnone
      · rw [hafter] at hc
        obtain rfl := Option.some.inj hc
        rw [hgrown.place_eq] at hfound
        have hbefore := hgrounded.locate_file h hgrown hthere hfound
        exact absurd (exists?_of_locate hbefore hthere) hexists

/-- An entry gets to its registry, or the registry stays as it was. -/
theorem register_enters (h : v.IsPlain) (s : Settings) (a : Aggregator) (root : Path)
    (entry : Script.Entry) :
    Enters s a v root entry (s.register a v root entry).1 (s.register a v root entry).2 := by
  cases hpatch : s.patchAggregator a v root entry with
  | error e =>
    rw [register_eq_iff.mpr (.unpatched hpatch)]
    exact .failed e (fun _ => rfl) fun _ => .inl rfl
  | ok patched =>
    obtain ⟨hpath, text, hread, hentered⟩ := patchAggregator_withEntry hpatch
    have hadded := mkdirParent_added h patched.path
    have hparent : v.Grounded patched.path → (v.mkdirParent patched.path).2.disk.get?
        (v.place patched.path) = v.disk.get? (v.place patched.path) :=
      Volume.Grounded.get?_mkdirParent h
    rw [s.register_eq hpatch, PatchedFile.write]
    cases hmade : v.mkdirParent patched.path with
    | mk result x =>
      rw [hmade] at hadded hparent
      rw [hpath] at hadded hparent
      have hrest : ∀ loc, Unaltered v x loc := fun loc => hadded.unaltered fun e => And.left
      cases result with
      | error e => exact .failed _ hparent hrest
      | ok =>
        rcases writeFile_cases hadded.plain.disk.links patched.path patched.content with
          ⟨e, hwrite⟩ | ⟨hwrite, hthere⟩
        · simp only [hwrite]
          exact .failed _ hparent hrest
        · have hne := place_ne_nil hthere
          simp only [hwrite]
          rw [hpath, hadded.place_eq] at hwrite hne ⊢
          refine .patched text patched.content patched.seeded
            (reads_of_written h hread hadded.toGrown hwrite) hentered ?_ fun loc hloc => ?_
          · rw [Volume.set, get?_set _ _ _ _ hne, if_pos rfl]
          · rw [Unaltered, Volume.set, get?_set _ _ _ _ hne, if_neg (Ne.symm hloc)]
            exact hrest loc

end Settings

/-- The path of the registry, if it has its entry. -/
def Outcome.patchedPath (o : Outcome) : Option Path :=
  match o.patch with
  | some (.patched _ path _) => some path
  | _ => none

/-- The paths of the files that are reported as made, and of the registry if it has its entry. -/
def Outcome.written (o : Outcome) : List Path := o.report.created ++ o.patchedPath.toList

namespace Settings

variable (s : Settings) (v : Volume) (root : Path) (r : Request) (tree : FileTree)

/-- The path of a file of a request. -/
def target (f : GeneratedFile) : Path :=
  (root.join (s.layout.directory v root r.archetype)).join f.path

/-- The disk when the files of a request have been made. -/
def filed : Volume := (v.materialize (root.join (s.layout.directory v root r.archetype)) tree).2

/-- The path of the registry of a request, as it is resolved when the files have been made. -/
def registryPath (e : Template.RegistryEntry) : Path :=
  root.join (s.aggregatorPath e.aggregator (s.filed v root r tree) root)

/-- A request that is accepted in a plain volume: it has been prepared, and the place of its registry is
none of the places of its files. -/
structure Separate (entry : Option Template.RegistryEntry) : Prop where
  /-- There are no links. -/
  plain : v.IsPlain
  /-- The request is accepted. -/
  prepared : s.prepare v root r = .ok (tree, entry)
  /-- The registry is none of the files. -/
  apart : ∀ e ∈ entry, ∀ f ∈ tree.files,
    v.place (s.registryPath v root r tree e) ≠ v.place (s.target v root r f)

/-- What a request has done: the outcome `o` is the difference between the disk before and the disk `w`
afterwards. -/
structure Difference (entry : Option Template.RegistryEntry) (o : Outcome) (w : Volume) : Prop where
  /-- The files that have changed or come up are those that were written. -/
  files : (∀ p ∈ o.patchedPath, (s.filed v root r tree).Grounded p) → ∀ loc,
    (∃ c, w.disk.get? loc = some (.file c) ∧ v.disk.get? loc ≠ some (.file c)) ↔
      ∃ p ∈ o.written, v.place p = loc
  /-- Where nothing was written, nothing has changed, except that directories are new. -/
  rest : ∀ loc, (∀ p ∈ o.written, v.place p ≠ loc) → Unaltered v w loc
  /-- A file that is reported as made was not there, and holds its text. -/
  created : ∀ p ∈ o.report.created, ∃ f ∈ tree.files, p = s.target v root r f ∧
    v.disk.get? (v.place p) = none ∧ w.disk.get? (v.place p) = some (.file (.text f.content))
  /-- At the place of a file that is reported as skipped there was something, which is unchanged, or the
  request itself has put it there: another of its files, or a directory on the way to one. -/
  skipped : ∀ p ∈ o.report.skipped, (∃ f ∈ tree.files, p = s.target v root r f) ∧
    ((∃ e, v.disk.get? (v.place p) = some e ∧ w.disk.get? (v.place p) = some e) ∨
      v.disk.get? (v.place p) = none ∧
        ((∃ q ∈ o.report.created, v.place q = v.place p) ∨
          w.disk.get? (v.place p) = some .dir ∧
            ∃ f ∈ tree.files, v.Above (s.target v root r f) (v.place p)))
  /-- The registry holds the text that it had, or its seed if there was none, with the entry. -/
  patched : ∀ a p seeded, o.patch = some (.patched a p seeded) → ∃ e ∈ entry,
    a = e.aggregator ∧ p = s.registryPath v root r tree e ∧
      ∃ text text', s.Reads a (s.filed v root r tree) root text seeded ∧
        (seeded = false → v.disk.get? (v.place p) = some (.file (.text text))) ∧
        a.withEntry (s.aggregatorPath a (s.filed v root r tree) root)
          (e.entry.rootedAt (s.layout.directory v root r.archetype)) text = some text' ∧
        w.disk.get? (v.place p) = some (.file (.text text'))
  /-- When the files could not all be made, nothing is done to a registry. -/
  stopped : o.materializeProblem ≠ none → o.patch = none ∧ w = s.filed v root r tree
  /-- A registry that does not get its entry is as it was when the files had been made, except that a
  directory may be new where there was none. -/
  failed : ∀ a problem, o.patch = some (.failed a problem) → ∃ e ∈ entry, a = e.aggregator ∧
    Unaltered (s.filed v root r tree) w (v.place (s.registryPath v root r tree e)) ∧
    ((s.filed v root r tree).Grounded (s.registryPath v root r tree e) →
      w.disk.get? (v.place (s.registryPath v root r tree e)) =
        (s.filed v root r tree).disk.get? (v.place (s.registryPath v root r tree e)))

variable {s v root r tree} {o : Outcome} {w : Volume} {entry : Option Template.RegistryEntry}

/-- The files that have changed are those that were written, if nothing has changed elsewhere. -/
theorem exists_changed_iff (hrest : ∀ loc, (∀ p ∈ o.written, v.place p ≠ loc) → Unaltered v w loc)
    (hcreated : ∀ p ∈ o.report.created, ∃ c, w.disk.get? (v.place p) = some (.file c) ∧
      v.disk.get? (v.place p) ≠ some (.file c))
    (hpatched : ∀ p ∈ o.patchedPath, ∃ c, w.disk.get? (v.place p) = some (.file c) ∧
      v.disk.get? (v.place p) ≠ some (.file c)) (loc : Location) :
    (∃ c, w.disk.get? loc = some (.file c) ∧ v.disk.get? loc ≠ some (.file c)) ↔
      ∃ p ∈ o.written, v.place p = loc := by
  constructor
  · rintro ⟨c, hnew, hold⟩
    by_contra hno
    push Not at hno
    rcases hrest loc hno with hsame | ⟨-, hdir⟩
    · rw [hsame] at hnew
      exact hold hnew
    · rw [hdir] at hnew
      cases hnew
  · rintro ⟨p, hp, rfl⟩
    rcases List.mem_append.mp hp with hp | hp
    · exact hcreated p hp
    · exact hpatched p (Option.mem_toList.mp hp)

/-- A file that was made has changed. -/
theorem exists_changed_of_created {p : Path} {files : List GeneratedFile} {target : GeneratedFile → Path}
    (h : ∃ f ∈ files, p = target f ∧ v.disk.get? (v.place p) = none ∧
      w.disk.get? (v.place p) = some (.file (.text f.content))) :
    ∃ c, w.disk.get? (v.place p) = some (.file c) ∧ v.disk.get? (v.place p) ≠ some (.file c) := by
  obtain ⟨f, -, -, hfree, htext⟩ := h
  refine ⟨_, htext, ?_⟩
  rw [hfree]
  exact (Option.some_ne_none _).symm

/-- The difference that a request makes which changes no registry: it lies in the files, and what is left
to be told is why there is no entry. -/
theorem difference_of_unpatched
    (h : Filed v (root.join (s.layout.directory v root r.archetype)) tree.files o.report
      (s.filed v root r tree))
    (hsame : ∀ loc, Unaltered (s.filed v root r tree) w loc) (hpath : o.patchedPath = none)
    (hstopped : o.materializeProblem ≠ none → o.patch = none ∧ w = s.filed v root r tree)
    (hfailed : ∀ a problem, o.patch = some (.failed a problem) → ∃ e ∈ entry, a = e.aggregator ∧
      Unaltered (s.filed v root r tree) w (v.place (s.registryPath v root r tree e)) ∧
      ((s.filed v root r tree).Grounded (s.registryPath v root r tree e) →
        w.disk.get? (v.place (s.registryPath v root r tree e)) =
          (s.filed v root r tree).disk.get? (v.place (s.registryPath v root r tree e)))) :
    s.Difference v root r tree entry o w := by
  obtain ⟨hcreated, hskipped⟩ := h.kept fun f _ e he => (hsame _).get?_eq_some he
  have hrest : ∀ loc, (∀ p ∈ o.written, v.place p ≠ loc) → Unaltered v w loc := fun loc hloc =>
    (h.unaltered fun p hp => hloc p (List.mem_append_left _ hp)).trans (hsame loc)
  refine ⟨fun _ => exists_changed_iff hrest
    (fun p hp => exists_changed_of_created (hcreated p hp)) ?_, hrest, hcreated, hskipped, ?_,
    hstopped, hfailed⟩
  · rw [hpath]
    rintro _ ⟨⟩
  · intro a p seeded hpatch
    rw [Outcome.patchedPath, hpatch] at hpath
    cases hpath

/-- The difference that a request makes which adds nothing to a registry. -/
theorem difference_of_filed
    (h : Filed v (root.join (s.layout.directory v root r.archetype)) tree.files o.report
      (s.filed v root r tree)) (hpatch : o.patch = none) :
    s.Difference v root r tree entry o (s.filed v root r tree) := by
  refine difference_of_unpatched h (fun _ => .inl rfl) ?_ (fun _ => ⟨hpatch, rfl⟩) ?_
  · rw [Outcome.patchedPath, hpatch]
  · rw [hpatch]
    rintro _ _ ⟨⟩

/-- The difference that a request makes whose registry gets its entry. -/
theorem difference_of_patched {e : Template.RegistryEntry} {text text' : String} {seeded : Bool}
    (h : Filed v (root.join (s.layout.directory v root r.archetype)) tree.files o.report
      (s.filed v root r tree))
    (hpatch : o.patch = some (.patched e.aggregator (s.registryPath v root r tree e) seeded))
    (hproblem : o.materializeProblem = none)
    (hreads : s.Reads e.aggregator (s.filed v root r tree) root text seeded)
    (hentered : e.aggregator.withEntry (s.aggregatorPath e.aggregator (s.filed v root r tree) root)
      (e.entry.rootedAt (s.layout.directory v root r.archetype)) text = some text')
    (hwritten : w.disk.get? (v.place (s.registryPath v root r tree e)) = some (.file (.text text')))
    (hrest : ∀ loc, v.place (s.registryPath v root r tree e) ≠ loc →
      Unaltered (s.filed v root r tree) w loc)
    (hne : text ≠ text')
    (hapart : ∀ f ∈ tree.files, v.place (s.registryPath v root r tree e) ≠
      v.place (s.target v root r f)) : s.Difference v root r tree (some e) o w := by
  have hpath : o.patchedPath = some (s.registryPath v root r tree e) := by
    rw [Outcome.patchedPath, hpatch]
  have hplace : ∀ p, (s.filed v root r tree).place p = v.place p := h.added.place_eq
  obtain ⟨hcreated, hskipped⟩ := h.kept fun f hf e' he => (hrest _ (hapart f hf)).get?_eq_some he
  have hall : ∀ loc, (∀ p ∈ o.written, v.place p ≠ loc) → Unaltered v w loc := fun loc hloc => by
    refine (h.unaltered fun p hp => hloc p (List.mem_append_left _ hp)).trans (hrest loc ?_)
    refine hloc _ (List.mem_append_right _ ?_)
    rw [hpath]
    exact List.mem_singleton_self _
  -- the text was in the registry before, since the registry is none of the files
  have hbefore : seeded = false → v.disk.get? (v.place (s.registryPath v root r tree e)) =
      some (.file (.text text)) := fun hseeded => by
    have hread := hreads.read hseeded
    rw [hplace] at hread
    exact h.get?_of_file hapart hread
  refine ⟨fun hgrounded => exists_changed_iff hall
    (fun p hp => exists_changed_of_created (hcreated p hp)) ?_, hall, hcreated, hskipped, ?_,
    fun hno => absurd hproblem hno, ?_⟩
  · rw [hpath] at hgrounded ⊢
    rintro p ⟨⟩
    refine ⟨_, hwritten, ?_⟩
    cases seeded with
    | false =>
      rw [hbefore rfl]
      exact fun heq => hne (Content.text.inj (Entry.file.inj (Option.some.inj heq)))
    | true =>
      have hmissing := hreads.missing rfl (hgrounded _ rfl)
      rw [hplace] at hmissing
      rw [registryPath, h.added.get?_eq_none hmissing]
      exact (Option.some_ne_none _).symm
  · rw [hpatch]
    rintro _ _ _ ⟨⟩
    exact ⟨e, rfl, rfl, rfl, text, text', hreads, hbefore, hentered, hwritten⟩
  · rw [hpatch]
    rintro _ _ ⟨⟩

/-- The difference that a request makes which comes to its registry. -/
theorem difference_of_entered {e : Template.RegistryEntry} {patch : PatchOutcome}
    (h : Filed v (root.join (s.layout.directory v root r.archetype)) tree.files o.report
      (s.filed v root r tree))
    (henters : Enters s e.aggregator (s.filed v root r tree) root
      (e.entry.rootedAt (s.layout.directory v root r.archetype)) patch w)
    (hpatch : o.patch = some patch) (hproblem : o.materializeProblem = none)
    (hfragment : e.aggregator.anchor = .fileEnd → e.entry.fragment.toList ≠ [])
    (hapart : ∀ f ∈ tree.files, v.place (s.registryPath v root r tree e) ≠
      v.place (s.target v root r f)) : s.Difference v root r tree (some e) o w := by
  have hplace : ∀ p, (s.filed v root r tree).place p = v.place p := h.added.place_eq
  cases henters with
  | failed problem hsame hrest =>
    refine difference_of_unpatched h hrest ?_ (fun hno => absurd hproblem hno) ?_
    · rw [Outcome.patchedPath, hpatch]
    · rw [hpatch]
      rintro _ _ ⟨⟩
      rw [hplace] at hsame
      exact ⟨e, rfl, rfl, hrest _, hsame⟩
  | patched text text' seeded hreads hentered hwritten hrest =>
    rw [hplace] at hwritten hrest
    have hne : text ≠ text' := by
      refine Aggregator.ne_of_withEntry ?_ hentered
      exact hfragment
    exact difference_of_patched h hpatch hproblem hreads hentered hwritten hrest hne hapart

/-- The outcome of a request that is accepted is the difference that the request makes, if the place of
its registry is none of the places of its files. -/
theorem generate_difference (s : Settings) {v : Volume} {root : Path} {r : Request} {tree : FileTree}
    {entry : Option Template.RegistryEntry} (h : s.Separate v root r tree entry) :
    ∃ o w, s.generate v root r = (.ok o, w) ∧ s.Difference v root r tree entry o w := by
  obtain ⟨hplain, hprepare, hapart⟩ := h
  have hfiled := placeFiles_filed hplain (root.join (s.layout.directory v root r.archetype)) tree.files
  rw [← materialize] at hfiled
  delta generate
  rw [hprepare]
  simp only
  cases hmade : v.materialize (root.join (s.layout.directory v root r.archetype)) tree with
  | mk result w =>
    obtain ⟨report, problem⟩ := result
    have hw : s.filed v root r tree = w := by rw [filed, hmade]
    rw [hmade] at hfiled
    subst hw
    cases problem with
    | some e => exact ⟨_, _, rfl, difference_of_filed hfiled rfl⟩
    | none =>
      cases entry with
      | none => exact ⟨_, _, rfl, difference_of_filed hfiled rfl⟩
      | some e =>
        have henters := register_enters hfiled.added.plain s e.aggregator root
          (e.entry.rootedAt (s.layout.directory v root r.archetype))
        rcases s.register e.aggregator (s.filed v root r tree) root
          (e.entry.rootedAt (s.layout.directory v root r.archetype)) with ⟨patch, w⟩
        exact ⟨_, _, rfl, difference_of_entered hfiled henters rfl rfl
          (Template.fragment_ne_nil (registryEntry_of_prepare hprepare)) (hapart e rfl)⟩

end Settings

/-- An empty disk is plain. -/
theorem isPlain_here : Volume.IsPlain ⟨⟨[]⟩, []⟩ := by
  have hget : ∀ loc e, Disk.get? ⟨[]⟩ loc = some e → loc = [] ∧ e = .dir := by
    intro loc e h
    cases loc with
    | nil => exact ⟨rfl, (Option.some.inj h).symm⟩
    | cons name names => cases h
  refine ⟨⟨fun loc target h => ?_, fun loc e h dir hdir hne => ?_⟩, rfl⟩
  · cases (hget loc _ h).2
  · rw [(hget loc e h).1] at hdir hne
    exact absurd (List.prefix_nil.mp hdir) hne

/-- A screen in an empty directory. -/
theorem generate_difference_home : ∃ tree entry,
    Settings.Separate {} ⟨⟨[]⟩, []⟩ ⟨".", []⟩ (Request.screen "Home") tree entry ∧
    ∃ o w, Settings.generate {} ⟨⟨[]⟩, []⟩ ⟨".", []⟩ (Request.screen "Home") = (.ok o, w) ∧
      Settings.Difference {} ⟨⟨[]⟩, []⟩ ⟨".", []⟩ (Request.screen "Home") tree entry o w := by
  have hseparate : ∃ tree entry,
      Settings.Separate {} ⟨⟨[]⟩, []⟩ ⟨".", []⟩ (Request.screen "Home") tree entry := by
    refine ⟨_, _, isPlain_here, rfl, ?_⟩
    rintro e ⟨⟩
    decide
  obtain ⟨tree, entry, hseparate⟩ := hseparate
  exact ⟨tree, entry, hseparate, Settings.generate_difference {} hseparate⟩

namespace Settings

section Climbing

/-- Settings with paths that go up: the containers have the given extension, and the shared network
functions go to a path through a directory with the name of their module. -/
def climbing (extension : String) : Settings where
  layout := { navigationDir := ⟨"n", []⟩, apiDir := ⟨"api.functions.js", [".."]⟩ }
  extensions := { component := extension }

/-- A request for one shared network function. -/
def getUsers : Request := ⟨.apiFunction, .ofList [("name", .text "users"), ("method", .text "get")]⟩

-- what the operations on a small disk come to is found by following them
attribute [local simp] placeFiles placeFile createNew createFile exists? mkdirParent mkdirAll chain
  mkdirChain mkdir isDir find? Volume.set Disk.set Disk.get? locate walk Disk.steps bareSteps
  segmentStep Path.join Path.parent Path.ofReversed Path.idle Path.isAbsolute Path.empty
  Report.precede List.lookup_cons Except.isOk Except.toBool

/-- Two files whose paths go up to the directory that they lie in are skipped. -/
theorem placeFiles_up (t t' d d' : String) :
    Volume.placeFiles ⟨⟨[]⟩, []⟩ ⟨".", ["n"]⟩
        [⟨⟨"AppNavigation.x", [".."]⟩, t, d⟩, ⟨⟨"MainNavigation.x", [".."]⟩, t', d'⟩] =
      ((⟨[], [⟨".", ["n", "AppNavigation.x", ".."]⟩, ⟨".", ["n", "MainNavigation.x", ".."]⟩]⟩, none),
        ⟨⟨[(["n", "MainNavigation.x"], .dir), (["n", "AppNavigation.x"], .dir), (["n"], .dir)]⟩,
          []⟩) := by
  have hadmissible : ∀ rest ∈ [["n"], ["n", "AppNavigation.x"], ["n", "AppNavigation.x", ".."],
      ["n", "MainNavigation.x"], ["n", "MainNavigation.x", ".."]],
      admissible ⟨".", rest⟩ = .ok () := by decide
  simp only [List.forall_mem_cons] at hadmissible
  simp +decide [hadmissible]

/-- Of two files whose paths go up to one place, the second is skipped. -/
theorem placeFiles_across (t t' d d' : String) :
    Volume.placeFiles ⟨⟨[]⟩, []⟩ ⟨".", ["n"]⟩
        [⟨⟨"AppNavigation.x", ["..", "a"]⟩, t, d⟩, ⟨⟨"MainNavigation.x", ["..", "a"]⟩, t', d'⟩] =
      ((⟨[⟨".", ["n", "AppNavigation.x", "..", "a"]⟩], [⟨".", ["n", "MainNavigation.x", "..", "a"]⟩]⟩,
          none),
        ⟨⟨[(["n", "MainNavigation.x"], .dir), (["n", "a"], .file (.text t)),
          (["n", "AppNavigation.x"], .dir), (["n"], .dir)]⟩, []⟩) := by
  have hadmissible : ∀ rest ∈ [["n"], ["n", "AppNavigation.x"], ["n", "AppNavigation.x", ".."],
      ["n", "AppNavigation.x", "..", "a"], ["n", "MainNavigation.x"], ["n", "MainNavigation.x", ".."],
      ["n", "MainNavigation.x", "..", "a"]], admissible ⟨".", rest⟩ = .ok () := by decide
  simp only [List.forall_mem_cons] at hadmissible
  simp +decide [hadmissible]

/-- A module whose path goes through a directory with its own name cannot be written. -/
theorem write_within (t : String) (seeded : Bool) :
    PatchedFile.write ⟨⟨".", ["api.functions.js", "..", "api.functions.js"]⟩, t, seeded⟩ ⟨⟨[]⟩, []⟩ =
      (.error (.writeFailed ⟨".", ["api.functions.js", "..", "api.functions.js"]⟩ .isDirectory),
        ⟨⟨[(["api.functions.js"], .dir)]⟩, []⟩) := by
  have hadmissible : ∀ rest ∈ [["api.functions.js"], ["api.functions.js", ".."],
      ["api.functions.js", "..", "api.functions.js"]], admissible ⟨".", rest⟩ = .ok () := by decide
  simp only [List.forall_mem_cons] at hadmissible
  simp +decide [hadmissible, PatchedFile.write, writeFile]

/-- Nothing is found at the end of a path through a directory that is missing. -/
theorem exists?_within : Volume.exists? ⟨⟨[]⟩, []⟩
    ⟨".", ["api.functions.js", "..", "api.functions.js"]⟩ = false := by
  have hadmissible :
      admissible ⟨".", ["api.functions.js", "..", "api.functions.js"]⟩ = .ok () := by decide
  simp +decide [hadmissible]

end Climbing

/-- What comes of a request that adds nothing to a registry. -/
theorem generate_of_placeFiles {s : Settings} {v w : Volume} {root : Path} {r : Request}
    {tree : FileTree} {report : Report} (h : s.prepare v root r = .ok (tree, none))
    (hfiles : v.placeFiles (root.join (s.layout.directory v root r.archetype)) tree.files =
      ((report, none), w)) : s.generate v root r = (.ok ⟨r.archetype, report, none, none⟩, w) :=
  generate_eq_iff.mpr (.filed h hfiles)

/-- What comes of a request that has no files. -/
theorem generate_of_register {s : Settings} {v w : Volume} {root : Path} {r : Request}
    {e : Template.RegistryEntry} {patch : PatchOutcome} (h : s.prepare v root r = .ok ({}, some e))
    (hregister : s.register e.aggregator v root
      (e.entry.rootedAt (s.layout.directory v root r.archetype)) = (patch, w)) :
    s.generate v root r = (.ok ⟨r.archetype, {}, none, some patch⟩, w) :=
  generate_eq_iff.mpr (.registered h rfl hregister)

/-- The module of network functions with the path through a directory of its own name. -/
theorem register_within : ∃ problem, (climbing "jsx").register .apiFunctions ⟨⟨[]⟩, []⟩ ⟨".", []⟩
    ⟨none, Template.networkFunctions "users" (.one .get)⟩ =
      (.failed .apiFunctions problem, ⟨⟨[(["api.functions.js"], .dir)]⟩, []⟩) := by
  have hpath : Path.join ⟨".", []⟩
      ((climbing "jsx").aggregatorPath .apiFunctions ⟨⟨[]⟩, []⟩ ⟨".", []⟩) =
        ⟨".", ["api.functions.js", "..", "api.functions.js"]⟩ := by
    delta aggregatorPath Aggregator.path
    rfl
  obtain ⟨t, hpatch⟩ : ∃ t, (climbing "jsx").patchAggregator .apiFunctions ⟨⟨[]⟩, []⟩ ⟨".", []⟩
      ⟨none, Template.networkFunctions "users" (.one .get)⟩ =
        .ok ⟨⟨".", ["api.functions.js", "..", "api.functions.js"]⟩, t, true⟩ := by
    rw [patchAggregator, aggregatorText, hpath, exists?_within]
    exact ⟨_, rfl⟩
  rw [register_eq _ hpatch, write_within]
  exact ⟨_, rfl⟩

/-- The outcome does not tell everything. A file may be skipped at whose place nothing was: the request
has made it a directory on the way to one of its files, or it has made another of its files there. And a
directory may come up at the place of a registry that does not get its entry. -/
theorem exists_unreported :
    (∃ tree o w p,
      (climbing "x/..").Separate ⟨⟨[]⟩, []⟩ ⟨".", []⟩ ⟨.navigation, .ofList []⟩ tree none ∧
      (climbing "x/..").generate ⟨⟨[]⟩, []⟩ ⟨".", []⟩ ⟨.navigation, .ofList []⟩ = (.ok o, w) ∧
      p ∈ o.report.skipped ∧ Disk.get? ⟨[]⟩ (Volume.place ⟨⟨[]⟩, []⟩ p) = none ∧
      w.disk.get? (Volume.place ⟨⟨[]⟩, []⟩ p) = some .dir) ∧
    (∃ tree o w p q,
      (climbing "x/../a").Separate ⟨⟨[]⟩, []⟩ ⟨".", []⟩ ⟨.navigation, .ofList []⟩ tree none ∧
      (climbing "x/../a").generate ⟨⟨[]⟩, []⟩ ⟨".", []⟩ ⟨.navigation, .ofList []⟩ = (.ok o, w) ∧
      p ∈ o.report.skipped ∧ Disk.get? ⟨[]⟩ (Volume.place ⟨⟨[]⟩, []⟩ p) = none ∧
      q ∈ o.report.created ∧ Volume.place ⟨⟨[]⟩, []⟩ q = Volume.place ⟨⟨[]⟩, []⟩ p) ∧
    ∃ tree e o w problem, (climbing "jsx").Separate ⟨⟨[]⟩, []⟩ ⟨".", []⟩ getUsers tree (some e) ∧
      (climbing "jsx").generate ⟨⟨[]⟩, []⟩ ⟨".", []⟩ getUsers = (.ok o, w) ∧
      o.patch = some (.failed e.aggregator problem) ∧
      ((climbing "jsx").filed ⟨⟨[]⟩, []⟩ ⟨".", []⟩ getUsers tree).disk.get? (Volume.place ⟨⟨[]⟩, []⟩
        ((climbing "jsx").registryPath ⟨⟨[]⟩, []⟩ ⟨".", []⟩ getUsers tree e)) = none ∧
      w.disk.get? (Volume.place ⟨⟨[]⟩, []⟩
        ((climbing "jsx").registryPath ⟨⟨[]⟩, []⟩ ⟨".", []⟩ getUsers tree e)) = some .dir := by
  refine ⟨?_, ?_, ?_⟩
  · exact ⟨_, _, _, ⟨".", ["n", "AppNavigation.x", ".."]⟩, ⟨isPlain_here, rfl, by simp⟩,
      generate_of_placeFiles rfl (placeFiles_up _ _ _ _), by simp, by decide, by decide⟩
  · exact ⟨_, _, _, ⟨".", ["n", "MainNavigation.x", "..", "a"]⟩,
      ⟨".", ["n", "AppNavigation.x", "..", "a"]⟩, ⟨isPlain_here, rfl, by simp⟩,
      generate_of_placeFiles rfl (placeFiles_across _ _ _ _), by simp, by decide, by simp, by decide⟩
  · obtain ⟨problem, hregister⟩ := register_within
    have hpath : ∀ e, e.aggregator = .apiFunctions →
        (climbing "jsx").registryPath ⟨⟨[]⟩, []⟩ ⟨".", []⟩ getUsers {} e =
          ⟨".", ["api.functions.js", "..", "api.functions.js"]⟩ := by
      intro e he
      rw [registryPath, he]
      delta aggregatorPath Aggregator.path
      rfl
    refine ⟨{}, ⟨.apiFunctions, none, Template.networkFunctions "users" (.one .get)⟩, _, _, problem,
      ⟨isPlain_here, rfl, fun _ _ _ hf => absurd hf List.not_mem_nil⟩,
      generate_of_register rfl hregister, rfl, ?_, ?_⟩
    · rfl
    · rw [hpath _ rfl]
      decide

end Settings

end AppScaffold
