import AppScaffold.Proofs.Disk.Writing
import AppScaffold.Proofs.Project.Outcomes
import AppScaffold.Proofs.Script.Insertion
import AppScaffold.Run
import Mathlib.Data.List.Basic
import Mathlib.Tactic.Common

/-!
# What requests keep

A request adds files and directories, and it adds an entry to its registry. Nothing that was there
before goes away, and no file but the registry changes. The registry keeps what was in it, unless it
was taken for missing: a path that goes through a missing directory and up again leads nowhere until
the directory is made, and the registry at its end is then written over.
-/

namespace AppScaffold

open Disk Volume

/-- The adding of one entry to a registry. -/
structure Registration where
  /-- The path of the registry, as it is resolved when the entry is added. -/
  path : Path
  /-- The disk before. -/
  before : Volume
  /-- What has become of the registry. -/
  outcome : PatchOutcome
  /-- The disk afterwards. -/
  after : Volume

namespace Registration

/-- The registry is written. -/
def Written (m : Registration) : Prop := ∃ a seeded, m.outcome = .patched a m.path seeded

/-- The registry is written without having been found, at the end of a path that goes up. -/
def Missed (m : Registration) : Prop :=
  m.before.exists? m.path = false ∧ .up ∈ Disk.steps m.path ∧ m.Written

/-- The place of the registry. -/
def place (m : Registration) : Location := m.before.place m.path

end Registration

namespace Settings

variable (s : Settings)

/-- The adding of an entry to a registry, with the disk before and afterwards. -/
def registration (a : Aggregator) (v : Volume) (root : Path) (entry : Script.Entry) :
    Registration :=
  ⟨root.join (s.aggregatorPath a v root), v, (s.register a v root entry).1,
    (s.register a v root entry).2⟩

/-- The adding of the entry of a request, if the request gets that far. -/
def registrationOf (v : Volume) (root : Path) (r : Request) : Option Registration :=
  match s.prepare v root r with
  | .error _ => none
  | .ok (tree, entry) =>
    let dir := s.layout.directory v root r.archetype
    match v.materialize (root.join dir) tree with
    | ((_, some _), _) => none
    | ((_, none), w) => entry.map fun e => s.registration e.aggregator w root (e.entry.rootedAt dir)

/-- The additions to registries by requests, one after the other. -/
def registrations (v : Volume) (root : Path) : List Request → List Registration
  | [] => []
  | r :: rs =>
    (s.registrationOf v root r).toList ++ registrations (s.generate v root r).2 root rs

/-- A registry gets its entry in the text that was read, or in its seed if it was missing. -/
theorem patchAggregator_eq_ok {a : Aggregator} {v : Volume} {root : Path} {entry : Script.Entry}
    {patched : PatchedFile} (h : s.patchAggregator a v root entry = .ok patched) :
    patched.path = root.join (s.aggregatorPath a v root) ∧
      ∃ text cs line, Script.applyPatch text.toList a.anchor entry.fragment.toList line = some cs ∧
        patched.content = String.ofList cs ∧
        if v.exists? patched.path then v.readText patched.path = .ok text
        else text = Skeleton.text (a.seed s.layout (s.aggregatorPath a v root)) := by
  rw [patchAggregator] at h
  simp only [bind, Except.bind] at h
  split at h
  · cases h
  · rename_i read hread
    obtain ⟨text, seeded⟩ := read
    simp only at h
    split at h
    · rename_i cs hcs
      cases h
      refine ⟨rfl, text, cs, _, hcs, rfl, ?_⟩
      simp only [aggregatorText] at hread
      split_ifs at hread ⊢ with hthere
      · split at hread
        · rename_i t ht
          cases hread
          exact ht
        · cases hread
      · cases hread
        rfl
    · cases h

/-- Writing a patched file makes the directories above it and then the file. -/
theorem write_eq_ok {p : PatchedFile} {v w : Volume} (h : p.write v = (.ok (), w)) :
    ∃ u, v.mkdirParent p.path = (.ok (), u) ∧ u.writeFile p.path p.content = (.ok (), w) := by
  cases PatchedFile.write_eq_iff.mp h with
  | written hmade hwrite => exact ⟨_, hmade, hwrite⟩

/-- What is written at the end of a path that was found, or that does not go up, keeps the octets of
an older text of which it is an extension. -/
theorem write_kept {v : Volume} (hv : v.disk.LinkFree) {patched : PatchedFile}
    {lost : Location → Prop}
    (hfound : v.exists? patched.path = true → ∃ text cs, v.readText patched.path = .ok text ∧
      text.toList.Sublist cs ∧ patched.content = String.ofList cs)
    (hlost : v.exists? patched.path = false → .up ∈ Disk.steps patched.path →
      (∃ w, patched.write v = (.ok (), w)) → lost (v.place patched.path)) :
    Kept (· = v.place patched.path) lost v (patched.write v).2 := by
  have hgrown := mkdirParent_grown v patched.path
  have hkept : ∀ u, v.mkdirParent patched.path = (.ok (), u) →
      Kept (· = v.place patched.path) lost v (u.writeFile patched.path patched.content).2 := by
    intro u hmade
    rw [hmade] at hgrown
    refine writeFile_kept hgrown hv fun c hc hrooted ⟨w, hw⟩ hno => ?_
    cases hexists : v.exists? patched.path with
    | true =>
      obtain ⟨text, cs, hread, hsub, hcontent⟩ := hfound hexists
      rw [get?_of_readText hv hread, Option.some.injEq, Entry.file.injEq] at hc
      rw [← hc, hcontent, Content.bytes, Content.bytes, String.toList_ofList]
      exact hsub.flatMap _
    | false =>
      by_cases hup : .up ∈ Disk.steps patched.path
      · exact absurd (hlost hexists hup ⟨w, PatchedFile.write_eq_iff.mpr (.written hmade hw)⟩) hno
      · -- the path led to the file before the directories were made
        have hplace : u.place patched.path = v.place patched.path := by
          rw [place, place, hgrown.cwd]
        rcases writeFile_cases (hgrown.links hv) patched.path patched.content with
          ⟨e, hwrite⟩ | ⟨-, hnone | ⟨-, hlocate⟩⟩
        · rw [hw] at hwrite
          cases hwrite
        · rw [hplace, hgrown.within _ _ hc] at hnone
          cases hnone
        · rw [hplace] at hlocate
          have hthere := hgrown.locate_file hv hup hc hrooted hlocate
          rw [exists?_of_locate hthere hc] at hexists
          cases hexists
  have hresult := patched.write_writeOf v
  generalize patched.write v = result at hresult ⊢
  cases hresult with
  | unpaved hmade =>
    rw [hmade] at hgrown
    exact hgrown.kept _ _
  | @unwritten _ u _ hmade hwrite | @written u _ hmade hwrite =>
    have hdone := hkept u hmade
    rwa [hwrite] at hdone

/-- The adding of an entry changes the registry only, and loses something only where the registry was
missed. -/
theorem registration_kept (a : Aggregator) {v : Volume} (hv : v.disk.LinkFree) (root : Path)
    (entry : Script.Entry) :
    Kept (· = (s.registration a v root entry).place)
      (fun loc => loc = (s.registration a v root entry).place ∧ (s.registration a v root entry).Missed)
      v (s.registration a v root entry).after := by
  have hafter : (s.registration a v root entry).after = (s.register a v root entry).2 := rfl
  rw [hafter]
  cases hpatch : s.patchAggregator a v root entry with
  | error e =>
    rw [register_eq_iff.mpr (.unpatched hpatch)]
    exact (Grown.refl v).kept _ _
  | ok patched =>
    obtain ⟨hpath, text, cs, line, hcs, hcontent, hread⟩ := s.patchAggregator_eq_ok hpatch
    have hplace : (s.registration a v root entry).place = v.place patched.path := by
      rw [hpath]
      rfl
    rw [hplace, s.register_eq hpatch]
    refine write_kept hv (fun hexists => ?_) fun hexists hup hdone => ⟨rfl, ?_⟩
    · rw [if_pos hexists] at hread
      exact ⟨text, cs, hread, Script.sublist_of_applyPatch hcs, hcontent⟩
    · obtain ⟨w, hw⟩ := hdone
      refine ⟨?_, ?_, a, patched.seeded, ?_⟩
      · rw [hpath] at hexists
        exact hexists
      · rw [hpath] at hup
        exact hup
      · change (s.register a v root entry).1 = .patched a (root.join _) patched.seeded
        rw [register_eq_iff.mpr (.written hpatch hw), hpath]

/-- An entry is added to a registry when the files of its request have been made. -/
theorem registrationOf_eq_some_iff {v : Volume} {root : Path} {r : Request} {m : Registration} :
    s.registrationOf v root r = some m ↔ ∃ tree entry report w,
      s.prepare v root r = .ok (tree, some entry) ∧
        v.materialize (root.join (s.layout.directory v root r.archetype)) tree =
          ((report, none), w) ∧
        s.registration entry.aggregator w root
          (entry.entry.rootedAt (s.layout.directory v root r.archetype)) = m := by
  rw [registrationOf]
  constructor
  · intro h
    split at h
    · cases h
    · next tree entry hprepare =>
      dsimp only at h
      split at h
      · cases h
      · next report w hfiles =>
        obtain ⟨entry, rfl, rfl⟩ := Option.map_eq_some_iff.mp h
        exact ⟨tree, entry, report, w, hprepare, hfiles, rfl⟩
  · rintro ⟨tree, entry, report, w, hprepare, hfiles, rfl⟩
    simp only [hprepare, hfiles, Option.map_some]

/-- A request keeps what its registration keeps. -/
theorem generate_kept {v : Volume} (hv : v.disk.LinkFree) (root : Path) (r : Request) :
    Kept (fun loc => ∃ m ∈ s.registrationOf v root r, loc = m.place)
      (fun loc => ∃ m ∈ s.registrationOf v root r, loc = m.place ∧ m.Missed) v
      (s.generate v root r).2 := by
  have hresult := s.generate_outcomeOf v root r
  generalize s.generate v root r = result at hresult
  have hgrown : ∀ tree, Grown v
      (v.materialize (root.join (s.layout.directory v root r.archetype)) tree).2 := fun tree =>
    placeFiles_grown v _ tree.files
  cases hresult with
  | refused => exact (Grown.refl v).kept _ _
  | @stopped tree _ _ _ _ _ hfiles | @filed tree _ _ _ hfiles =>
    have hmade := hgrown tree
    rw [hfiles] at hmade
    exact hmade.kept _ _
  | @registered tree entry _ _ w _ hprepare hfiles hregister =>
    have hmade := hgrown tree
    rw [hfiles] at hmade
    have hkept := s.registration_kept entry.aggregator (hmade.links hv) root
      (entry.entry.rootedAt (s.layout.directory v root r.archetype))
    have hmem := s.registrationOf_eq_some_iff.mpr ⟨tree, entry, _, w, hprepare, hfiles, rfl⟩
    rw [registration, hregister] at hkept
    rw [registration, hregister] at hmem
    refine ((hmade.kept (fun _ => False) (fun _ => False)).trans hkept).mono ?_ ?_
    · rintro loc (hno | hloc)
      · exact hno.elim
      · exact ⟨_, hmem, hloc⟩
    · rintro loc (hno | hloc)
      · exact hno.elim
      · exact ⟨_, hmem, hloc⟩

/-- Requests keep what their registrations keep. -/
theorem generateAll_kept {v : Volume} (hv : v.disk.LinkFree) (root : Path) (rs : List Request) :
    Kept (fun loc => ∃ m ∈ s.registrations v root rs, loc = m.place)
      (fun loc => ∃ m ∈ s.registrations v root rs, loc = m.place ∧ m.Missed) v
      (s.generateAll v root rs).2 := by
  induction rs generalizing v with
  | nil => exact (Grown.refl v).kept _ _
  | cons r rs ih =>
    have hfirst := s.generate_kept hv root r
    have hrest := ih (hfirst.links hv)
    have hboth := hfirst.trans hrest
    simp only [generateAll, registrations, List.mem_append, Option.mem_toList]
    refine hboth.mono ?_ ?_
    · rintro loc (⟨m, hm, hloc⟩ | ⟨m, hm, hloc⟩)
      · exact ⟨m, .inl hm, hloc⟩
      · exact ⟨m, .inr hm, hloc⟩
    · rintro loc (⟨m, hm, hloc⟩ | ⟨m, hm, hloc⟩)
      · exact ⟨m, .inl hm, hloc⟩
      · exact ⟨m, .inr hm, hloc⟩

/-- Every addition to a registry is made on a disk without links. -/
theorem exists_of_mem_registrations {v : Volume} (hv : v.disk.LinkFree) {root : Path}
    {rs : List Request} {m : Registration} (hm : m ∈ s.registrations v root rs) :
    ∃ a u entry, u.disk.LinkFree ∧ m = s.registration a u root entry := by
  induction rs generalizing v with
  | nil => cases hm
  | cons r rs ih =>
    rw [registrations, List.mem_append, Option.mem_toList] at hm
    rcases hm with hm | hm
    · obtain ⟨tree, entry, report, w, -, hfiles, rfl⟩ := s.registrationOf_eq_some_iff.mp hm
      have hgrown := placeFiles_grown v (root.join (s.layout.directory v root r.archetype)) tree.files
      rw [← materialize, hfiles] at hgrown
      exact ⟨_, w, _, hgrown.links hv, rfl⟩
    · exact ih ((s.generate_kept hv root r).links hv) hm

/-- A registry that was missed holds its seed with one entry afterwards, whatever was in it. -/
theorem Missed.get?_after {a : Aggregator} {v : Volume} (hv : v.disk.LinkFree) {root : Path}
    {entry : Script.Entry} (h : (s.registration a v root entry).Missed) :
    ∃ cs line, Script.applyPatch
        (Skeleton.text (a.seed s.layout (s.aggregatorPath a v root))).toList a.anchor
        entry.fragment.toList line = some cs ∧
      (s.registration a v root entry).after.disk.get? (s.registration a v root entry).place =
        some (.file (.text (String.ofList cs))) := by
  obtain ⟨hexists, -, a', seeded, houtcome⟩ := h
  change (s.register a v root entry).1 = _ at houtcome
  change ∃ cs line, _ ∧ (s.register a v root entry).2.disk.get? _ = _
  have hresult := s.register_patchOf a v root entry
  generalize s.register a v root entry = result at hresult houtcome ⊢
  cases hresult with
  | unpatched | unwritten => cases houtcome
  | @written patched w hpatch hwrite =>
    obtain ⟨hpath, text, cs, line, hcs, hcontent, hread⟩ := s.patchAggregator_eq_ok hpatch
    have hplace : (s.registration a v root entry).place = v.place patched.path := by
      rw [hpath]
      rfl
    have hmissing : ¬v.exists? patched.path = true := by
      rw [hpath, show v.exists? (root.join (s.aggregatorPath a v root)) = false from hexists]
      decide
    rw [if_neg hmissing] at hread
    refine ⟨cs, line, hread ▸ hcs, ?_⟩
    obtain ⟨u, hmade, hdone⟩ := write_eq_ok hwrite
    have hgrown := mkdirParent_grown v patched.path
    rw [hmade] at hgrown
    have hsame : u.place patched.path = v.place patched.path := by
      rw [Volume.place, Volume.place, hgrown.cwd]
    rw [hplace, ← hsame, ← hcontent]
    exact get?_of_writeFile (hgrown.links hv) hdone

end Settings

/-- Requests leave what was there: directories and files stay, a file that is no registry of theirs
keeps its content, and a registry keeps its octets in order, unless it is missed. A registry that is
missed loses what was in it. -/
theorem Settings.generateAll_keeps (s : Settings) {v : Volume} (h : v.disk.Plain) (root : Path)
    (rs : List Request) :
    (∀ loc, v.disk.get? loc = some .dir →
      (s.generateAll v root rs).2.disk.get? loc = some .dir) ∧
    (∀ loc c, v.disk.get? loc = some (.file c) →
      ∃ c', (s.generateAll v root rs).2.disk.get? loc = some (.file c') ∧
        ((∀ m ∈ s.registrations v root rs, m.place ≠ loc) → c' = c) ∧
        ((∀ m ∈ s.registrations v root rs, m.place = loc → ¬m.Missed) →
          c.bytes.Sublist c'.bytes)) ∧
    ∀ m ∈ s.registrations v root rs, m.Missed →
      ∃ (a : Aggregator) (file : Path) (fragment : List Char) (line : Option (List Char))
        (cs : List Char),
        Script.applyPatch (Skeleton.text (a.seed s.layout file)).toList a.anchor fragment line =
          some cs ∧
        m.after.disk.get? m.place = some (.file (.text (String.ofList cs))) := by
  have hkept := s.generateAll_kept h.links root rs
  refine ⟨hkept.dirs, fun loc c hc => ?_, fun m hm hmissed => ?_⟩
  · obtain ⟨c', hc', hsame, hsub⟩ := hkept.files loc c hc (h.rooted loc _ hc)
    refine ⟨c', hc', fun hno => hsame ?_, fun hno => hsub ?_⟩
    · rintro ⟨m, hm, rfl⟩
      exact hno m hm rfl
    · rintro ⟨m, hm, rfl, hmissed⟩
      exact hno m hm rfl hmissed
  · obtain ⟨a, u, entry, hu, rfl⟩ := s.exists_of_mem_registrations h.links hm
    obtain ⟨cs, line, hcs, hget⟩ := Missed.get?_after s hu hmissed
    exact ⟨a, _, _, line, cs, hcs, hget⟩

/-- The path of the registry goes through a directory that is not there and up again, so that the
registry is missed. -/
theorem generateAll_keeps_registry_above :
    Plain ⟨[(["S.jsx"], .file (.text "export const stackScreens = [\n];\n"))]⟩ ∧
      ∃ c', (Settings.generateAll { layout := { screenRegistry := ⟨"x", ["..", "S.jsx"]⟩ } }
          ⟨⟨[(["S.jsx"], .file (.text "export const stackScreens = [\n];\n"))]⟩, []⟩ ⟨".", []⟩
          [Request.screen "Home"]).2.disk.get? ["S.jsx"] = some (.file c') ∧
        ((∀ m ∈ Settings.registrations
            { layout := { screenRegistry := ⟨"x", ["..", "S.jsx"]⟩ } }
            ⟨⟨[(["S.jsx"], .file (.text "export const stackScreens = [\n];\n"))]⟩, []⟩ ⟨".", []⟩
            [Request.screen "Home"], m.place = ["S.jsx"] → ¬m.Missed) →
          (Content.text "export const stackScreens = [\n];\n").bytes.Sublist c'.bytes) := by
  have hget : ∀ loc e, Disk.get?
      ⟨[(["S.jsx"], .file (.text "export const stackScreens = [\n];\n"))]⟩ loc = some e →
        loc = [] ∧ e = .dir ∨
          loc = ["S.jsx"] ∧ e = .file (.text "export const stackScreens = [\n];\n") := by
    intro loc e h
    cases loc with
    | nil => exact .inl ⟨rfl, (Option.some.inj h).symm⟩
    | cons name names =>
      rw [Disk.get?, List.lookup_cons] at h
      · split at h
        · rename_i heq
          exact .inr ⟨eq_of_beq heq, (Option.some.inj h).symm⟩
        · cases h
      · intro hnil
        cases hnil
  have hplain : Plain ⟨[(["S.jsx"], .file (.text "export const stackScreens = [\n];\n"))]⟩ := by
    refine ⟨fun loc target h => ?_, fun loc e h dir hdir hne => ?_⟩
    · rcases hget loc _ h with ⟨-, he⟩ | ⟨-, he⟩ <;> cases he
    · rcases hget loc _ h with ⟨rfl, -⟩ | ⟨rfl, -⟩
      · exact absurd (List.prefix_nil.mp hdir) hne
      · rcases List.prefix_cons_iff.mp hdir with rfl | ⟨t, rfl, ht⟩
        · rfl
        · rw [List.prefix_nil.mp ht] at hne
          exact absurd rfl hne
  obtain ⟨-, hfiles, -⟩ := Settings.generateAll_keeps
    { layout := { screenRegistry := ⟨"x", ["..", "S.jsx"]⟩ } }
    (v := ⟨⟨[(["S.jsx"], .file (.text "export const stackScreens = [\n];\n"))]⟩, []⟩) hplain
    ⟨".", []⟩ [Request.screen "Home"]
  obtain ⟨c', hc', -, hsub⟩ := hfiles ["S.jsx"] _ rfl
  exact ⟨hplain, c', hc', hsub⟩

end AppScaffold
