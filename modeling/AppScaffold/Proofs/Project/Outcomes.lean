import AppScaffold.Generate
import Mathlib.Tactic.Common

/-!
# What comes of a request

A request may be refused, or stopped at one of its files, or it makes all of them; then its entry, if it
has one, goes to its registry. `OutcomeOf` lists these courses with what has been found on each of them,
`PatchOf` does so for the adding of the entry, and `WriteOf` for the writing of the registry. A request
comes to what the lists say and to nothing else, so what holds of all requests is shown for one course
after the other.
-/

namespace AppScaffold

namespace PatchedFile

variable {p : PatchedFile} {v : Volume} {result : Except Problem Unit × Volume}

/-- What may come of the writing of a patched file. -/
inductive WriteOf (p : PatchedFile) (v : Volume) : Except Problem Unit × Volume → Prop
  /-- One of the directories above it cannot be made. -/
  | unpaved {dir : Path} {e : Fault} {w : Volume}
      (hmade : v.mkdirParent p.path = (.error (dir, e), w)) :
      WriteOf p v (.error (.directoryCreationFailed dir e), w)
  /-- The directories are there, but the file cannot be written. -/
  | unwritten {e : Fault} {u w : Volume} (hmade : v.mkdirParent p.path = (.ok (), u))
      (hwrite : u.writeFile p.path p.content = (.error e, w)) :
      WriteOf p v (.error (.writeFailed p.path e), w)
  /-- The file is written. -/
  | written {u w : Volume} (hmade : v.mkdirParent p.path = (.ok (), u))
      (hwrite : u.writeFile p.path p.content = (.ok (), w)) : WriteOf p v (.ok (), w)

/-- The writing of a patched file comes to one of these. -/
theorem write_writeOf (p : PatchedFile) (v : Volume) : p.WriteOf v (p.write v) := by
  delta write
  rcases hmade : v.mkdirParent p.path with ⟨⟨dir, e⟩ | _, u⟩
  · exact .unpaved hmade
  · dsimp only
    rcases hwrite : u.writeFile p.path p.content with ⟨_ | _, w⟩
    · exact .unwritten hmade hwrite
    · exact .written hmade hwrite

/-- Only one of these comes of the writing of a patched file. -/
theorem write_eq_iff : p.write v = result ↔ p.WriteOf v result := by
  refine ⟨fun h => h ▸ p.write_writeOf v, fun h => ?_⟩
  delta write
  cases h with
  | unpaved hmade => rw [hmade]
  | unwritten hmade hwrite => simp only [hmade, hwrite]
  | written hmade hwrite => simp only [hmade, hwrite]

end PatchedFile

namespace Settings

variable {s : Settings} {v : Volume} {root : Path}

section Register

variable {a : Aggregator} {added : Script.Entry} {result : PatchOutcome × Volume}

/-- What may come of the adding of an entry to a registry. -/
inductive PatchOf (s : Settings) (a : Aggregator) (v : Volume) (root : Path) (added : Script.Entry) :
    PatchOutcome × Volume → Prop
  /-- The registry cannot be read, or it has no place for entries. -/
  | unpatched {e : Problem} (hpatch : s.patchAggregator a v root added = .error e) :
      PatchOf s a v root added (.failed a e, v)
  /-- The registry cannot be written, but the directories above it may have been made. -/
  | unwritten {patched : PatchedFile} {e : Problem} {w : Volume}
      (hpatch : s.patchAggregator a v root added = .ok patched)
      (hwrite : patched.write v = (.error e, w)) : PatchOf s a v root added (.failed a e, w)
  /-- The registry is written with its entry. -/
  | written {patched : PatchedFile} {w : Volume}
      (hpatch : s.patchAggregator a v root added = .ok patched)
      (hwrite : patched.write v = (.ok (), w)) :
      PatchOf s a v root added (.patched a patched.path patched.seeded, w)

/-- The adding of an entry comes to one of these. -/
theorem register_patchOf (s : Settings) (a : Aggregator) (v : Volume) (root : Path)
    (added : Script.Entry) : s.PatchOf a v root added (s.register a v root added) := by
  delta register
  cases hpatch : s.patchAggregator a v root added with
  | error e => exact .unpatched hpatch
  | ok patched =>
    dsimp only
    rcases hwrite : patched.write v with ⟨_ | _, w⟩
    · exact .unwritten hpatch hwrite
    · exact .written hpatch hwrite

/-- Only one of these comes of the adding of an entry. -/
theorem register_eq_iff : s.register a v root added = result ↔ s.PatchOf a v root added result := by
  refine ⟨fun h => h ▸ register_patchOf s a v root added, fun h => ?_⟩
  delta register
  cases h with
  | unpatched hpatch => rw [hpatch]
  | unwritten hpatch hwrite => simp only [hpatch, hwrite]
  | written hpatch hwrite => simp only [hpatch, hwrite]

/-- A registry that is patched is written, or the reason why it cannot be is reported. -/
theorem register_eq {patched : PatchedFile} (s : Settings)
    (h : s.patchAggregator a v root added = .ok patched) :
    s.register a v root added =
      (match (patched.write v).1 with
        | .ok () => .patched a patched.path patched.seeded
        | .error e => .failed a e,
        (patched.write v).2) := by
  rcases hwrite : patched.write v with ⟨_ | _, w⟩
  · exact register_eq_iff.mpr (.unwritten h hwrite)
  · exact register_eq_iff.mpr (.written h hwrite)

end Register

section Generate

variable {r : Request} {result : Except Problem Outcome × Volume}

/-- What may come of a request. -/
inductive OutcomeOf (s : Settings) (v : Volume) (root : Path) (r : Request) :
    Except Problem Outcome × Volume → Prop
  /-- The request is refused, and nothing has changed. -/
  | refused {e : Problem} (hprepare : s.prepare v root r = .error e) :
      OutcomeOf s v root r (.error e, v)
  /-- One of the files cannot be made, and the work stops there. -/
  | stopped {tree : FileTree} {entry : Option Template.RegistryEntry} {report : Report} {e : Problem}
      {w : Volume} (hprepare : s.prepare v root r = .ok (tree, entry))
      (hfiles : v.materialize (root.join (s.layout.directory v root r.archetype)) tree =
        ((report, some e), w)) :
      OutcomeOf s v root r (.ok ⟨r.archetype, report, some e, none⟩, w)
  /-- The files are there, and nothing goes to a registry. -/
  | filed {tree : FileTree} {report : Report} {w : Volume}
      (hprepare : s.prepare v root r = .ok (tree, none))
      (hfiles : v.materialize (root.join (s.layout.directory v root r.archetype)) tree =
        ((report, none), w)) :
      OutcomeOf s v root r (.ok ⟨r.archetype, report, none, none⟩, w)
  /-- The files are there, and the entry goes to its registry on the disk with the files. -/
  | registered {tree : FileTree} {entry : Template.RegistryEntry} {report : Report}
      {patch : PatchOutcome} {w x : Volume} (hprepare : s.prepare v root r = .ok (tree, some entry))
      (hfiles : v.materialize (root.join (s.layout.directory v root r.archetype)) tree =
        ((report, none), w))
      (hregister : s.register entry.aggregator w root
        (entry.entry.rootedAt (s.layout.directory v root r.archetype)) = (patch, x)) :
      OutcomeOf s v root r (.ok ⟨r.archetype, report, none, some patch⟩, x)

/-- A request comes to one of these. -/
theorem generate_outcomeOf (s : Settings) (v : Volume) (root : Path) (r : Request) :
    s.OutcomeOf v root r (s.generate v root r) := by
  delta generate
  cases hprepare : s.prepare v root r with
  | error e => exact .refused hprepare
  | ok prepared =>
    obtain ⟨tree, entry⟩ := prepared
    dsimp only
    rcases hfiles : v.materialize (root.join (s.layout.directory v root r.archetype)) tree with
      ⟨⟨report, _ | e⟩, w⟩
    · cases entry with
      | none => exact .filed hprepare hfiles
      | some entry => exact .registered hprepare hfiles rfl
    · exact .stopped hprepare hfiles

/-- Only one of these comes of a request. -/
theorem generate_eq_iff : s.generate v root r = result ↔ s.OutcomeOf v root r result := by
  refine ⟨fun h => h ▸ generate_outcomeOf s v root r, fun h => ?_⟩
  delta generate
  cases h with
  | refused hprepare => rw [hprepare]
  | stopped hprepare hfiles => simp only [hprepare, hfiles]
  | filed hprepare hfiles => simp only [hprepare, hfiles]
  | registered hprepare hfiles hregister => simp only [hprepare, hfiles, hregister]

/-- A request that cannot be prepared changes nothing. -/
theorem generate_of_prepare {e : Problem} (h : s.prepare v root r = .error e) :
    s.generate v root r = (.error e, v) :=
  generate_eq_iff.mpr (.refused h)

/-- A request is accepted if it can be prepared. -/
theorem exists_outcome_iff (s : Settings) (v : Volume) (root : Path) (r : Request) :
    (∃ o, (s.generate v root r).1 = .ok o) ↔
      ∃ tree entry, s.prepare v root r = .ok (tree, entry) := by
  have hresult := s.generate_outcomeOf v root r
  generalize s.generate v root r = result at hresult ⊢
  cases hresult with
  | refused hprepare => simp [hprepare]
  | stopped hprepare | filed hprepare | registered hprepare => simp [hprepare]

/-- A request is refused if it cannot be prepared. -/
theorem generate_eq_error_iff {e : Problem} :
    (s.generate v root r).1 = .error e ↔ s.prepare v root r = .error e := by
  have hresult := s.generate_outcomeOf v root r
  generalize s.generate v root r = result at hresult ⊢
  cases hresult with
  | refused hprepare => simp [hprepare]
  | stopped hprepare | filed hprepare | registered hprepare => simp [hprepare]

/-- A request that is refused changes nothing. -/
theorem volume_of_refused {e : Problem} (h : (s.generate v root r).1 = .error e) :
    (s.generate v root r).2 = v := by
  rw [generate_of_prepare (generate_eq_error_iff.mp h)]

/-- An outcome tells of which kind the request was. -/
theorem archetype_of_generate {o : Outcome} (h : (s.generate v root r).1 = .ok o) :
    o.archetype = r.archetype := by
  have hresult := s.generate_outcomeOf v root r
  generalize s.generate v root r = result at hresult h
  cases hresult with
  | refused => cases h
  | stopped | filed | registered =>
    obtain rfl := Except.ok.inj h
    rfl

end Generate

end Settings

end AppScaffold
