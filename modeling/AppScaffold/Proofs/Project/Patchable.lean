import AppScaffold.Proofs.Project.Isolation
import AppScaffold.Proofs.Project.RegistryLines

/-!
# Registries that stay patchable

In a new project the lists of screens and the root reducer are made from their seeds and only ever
patched. What stands in them is told by the layout. If the import lines of screens leave nothing open
the list can be patched again and again. If they leave a string or a comment open, the first patch takes
the declaration out of the code, and every later one misses it. So a request misses the place for its
entry exactly if the lines of its registry leave something open and the registry has got an entry before.
-/

namespace AppScaffold

open Disk Volume

namespace PatchOutcome

/-- The registry to which an entry was to be added. -/
def aggregator : PatchOutcome → Aggregator
  | patched a _ _ | failed a _ => a

/-- The entry was not added because the place for entries was not found. -/
def MissesAnchor (p : PatchOutcome) : Prop :=
  ∃ a file marker, p = .failed a (.anchorNotFound file marker)

end PatchOutcome

/-- A registry has got an entry. -/
def Outcome.Patches (o : Outcome) (a : Aggregator) : Prop :=
  ∃ path seeded, o.patch = some (.patched a path seeded)

/-- The outcomes of requests are that of the first one, if it was accepted, and those of the others. -/
theorem mem_outcomesOf_cons {a : Archetype} {result : Except Problem Outcome}
    {results : List (Archetype × Except Problem Outcome)} {o : Outcome} :
    o ∈ outcomesOf ((a, result) :: results) ↔ result = .ok o ∨ o ∈ outcomesOf results := by
  cases result with
  | error e => simp [outcomesOf, Except.toOption]
  | ok o' => simp [outcomesOf, Except.toOption, eq_comm]

namespace Settings

variable {s : Settings} {v w : Volume} {root : Path} {a b : Aggregator} {entry : Script.Entry}
  {text : String} {seeded : Bool}

/-- An entry is added to the seed of the registry, or to the text of the file at its place. -/
theorem aggregatorText_cases (hv : v.disk.LinkFree)
    (h : s.aggregatorText a v root = .ok (text, seeded)) :
    text = Skeleton.text (a.seed s.layout (s.aggregatorPath a v root)) ∨
      v.disk.get? (v.place (root.join (s.aggregatorPath a v root))) = some (.file (.text text)) := by
  simp only [aggregatorText] at h
  split_ifs at h
  · split at h
    · next hread =>
      obtain ⟨rfl, -⟩ := Prod.mk.inj (Except.ok.inj h)
      exact .inr (get?_of_readText hv hread)
    · cases h
  · exact .inl (Prod.mk.inj (Except.ok.inj h)).1.symm

/-- An entry is added to what can be read. -/
theorem aggregatorText_of_readText
    (h : v.readText (root.join (s.aggregatorPath a v root)) = .ok text) :
    s.aggregatorText a v root = .ok (text, false) := by
  simp only [aggregatorText, exists?_of_readText h, if_true, h]

/-- What is wrong with the writing of a file is not that a place for entries is missing. -/
theorem write_ne_anchorNotFound {p : PatchedFile} {e : Problem} (h : (p.write v).1 = .error e)
    (file : Path) (marker : String) : e ≠ .anchorNotFound file marker := by
  have hresult := p.write_writeOf v
  generalize p.write v = result at hresult h
  cases hresult with
  | written => cases h
  | unpaved | unwritten =>
    obtain rfl := Except.error.inj h
    nofun

/-- The place for entries is missed exactly in a text that has none. -/
theorem missesAnchor_iff : (s.register a v root entry).1.MissesAnchor ↔
    ∃ text seeded, s.aggregatorText a v root = .ok (text, seeded) ∧
      a.withEntry (s.aggregatorPath a v root) entry text = none := by
  cases htext : s.aggregatorText a v root with
  | error e =>
    have hpatch : s.patchAggregator a v root entry = .error e := by
      rw [patchAggregator, htext]
      rfl
    have hread : ∃ p f, e = .readFailed p f := by
      simp only [aggregatorText] at htext
      split_ifs at htext
      split at htext
      · cases htext
      · exact ⟨_, _, (Except.error.inj htext).symm⟩
    obtain ⟨p, f, rfl⟩ := hread
    refine iff_of_false ?_ (by simp)
    rw [register_eq_iff.mpr (.unpatched hpatch)]
    rintro ⟨b, file, marker, hmissed⟩
    cases hmissed
  | ok read =>
    obtain ⟨text, seeded⟩ := read
    have hpatch := patchAggregator_eq htext entry
    cases hentered : a.withEntry (s.aggregatorPath a v root) entry text with
    | none =>
      rw [hentered] at hpatch
      rw [register_eq_iff.mpr (.unpatched hpatch)]
      exact iff_of_true ⟨_, _, _, rfl⟩ ⟨text, seeded, rfl, hentered⟩
    | some content =>
      rw [hentered] at hpatch
      refine iff_of_false ?_ ?_
      · rw [s.register_eq hpatch]
        rintro ⟨b, file, marker, hmissed⟩
        dsimp only at hmissed
        split at hmissed
        · cases hmissed
        · next hwrite =>
          exact write_ne_anchorNotFound hwrite file marker (PatchOutcome.failed.inj hmissed).2
      · rintro ⟨text', seeded', hread, hnone⟩
        obtain ⟨rfl, -⟩ := Prod.mk.inj (Except.ok.inj hread)
        cases hentered.symm.trans hnone

/-- A registry that is patched holds its text with the entry, which can be read. -/
theorem exists_of_patched (hv : v.IsPlain) {path : Path}
    (h : (s.register a v root entry).1 = .patched b path seeded) :
    b = a ∧ path = root.join (s.aggregatorPath a v root) ∧ ∃ text text',
      s.aggregatorText a v root = .ok (text, seeded) ∧
        a.withEntry (s.aggregatorPath a v root) entry text = some text' ∧
        (s.register a v root entry).2.readText path = .ok text' := by
  have hresult := s.register_patchOf a v root entry
  generalize s.register a v root entry = result at hresult h ⊢
  cases hresult with
  | unpatched | unwritten => cases h
  | @written patched w hpatch hwrite =>
    obtain ⟨hpath, text, hread, hentered⟩ := patchAggregator_withEntry hpatch
    obtain ⟨rfl, rfl, rfl⟩ := PatchOutcome.patched.inj h
    obtain ⟨u, hmade, hdone⟩ := write_eq_ok hwrite
    have hadded := mkdirParent_added hv patched.path
    rw [hmade] at hadded
    exact ⟨rfl, hpath, text, _, hread, hentered, readText_of_writeFile hdone⟩

/-- The outcome of the adding of an entry tells of the registry. -/
theorem aggregator_register (s : Settings) (a : Aggregator) (v : Volume) (root : Path)
    (entry : Script.Entry) : (s.register a v root entry).1.aggregator = a := by
  have hresult := s.register_patchOf a v root entry
  generalize s.register a v root entry = result at hresult ⊢
  cases hresult with
  | _ => rfl

/-- The adding of an entry leaves the directories as they are. -/
theorem register_spares_root (hv : v.IsPlain) (s : Settings) (a : Aggregator) (root : Path)
    (entry : Script.Entry) : Spares v (s.register a v root entry).2 [] := by
  have hmade : Spares v (v.mkdirParent (root.join (s.aggregatorPath a v root))).2 [] :=
    (mkdirParent_added hv _).spares_root
  obtain hsame | hdirs | ⟨t, hwritten⟩ := register_cases s a v root entry
  · rw [hsame]
    exact .refl hv _
  · rwa [hdirs]
  · rw [hwritten]
    exact hmade.trans (writeFile_spares hmade.plain _ t _)

/-- The adding of an entry changes the place of the registry only, if it changes anything. -/
theorem register_unaltered (hv : v.IsPlain) (s : Settings) (a : Aggregator) (root : Path)
    (entry : Script.Entry) :
    (∀ b path seeded, (s.register a v root entry).1 ≠ .patched b path seeded) ∧
        (∀ loc, Unaltered v (s.register a v root entry).2 loc) ∨
      ∃ seeded,
        (s.register a v root entry).1 = .patched a (root.join (s.aggregatorPath a v root)) seeded ∧
          ∀ loc, v.place (root.join (s.aggregatorPath a v root)) ≠ loc →
            Unaltered v (s.register a v root entry).2 loc := by
  have henters := register_enters hv s a root entry
  generalize s.register a v root entry = result at henters ⊢
  obtain ⟨patch, w⟩ := result
  cases henters with
  | patched _ _ seeded _ _ _ hrest => exact .inr ⟨seeded, rfl, hrest⟩
  | failed _ _ hrest => exact .inl ⟨fun _ _ _ => nofun, hrest⟩

/-- The place of a list or table in a project is told by the names in its path. -/
theorem IsDownward.place_registry (h : s.IsDownward) (ha : a.frame ≠ none) (v : Volume) (root : Path) :
    v.place (root.join (s.aggregatorPath a v root)) =
        v.place root ++ (s.aggregatorPath a v root).names ∧
      s.IsRegistryAt a (s.aggregatorPath a v root).names := by
  have hnamed : a.IsNamed := by
    rintro screen rfl
    exact absurd rfl ha
  exact ⟨place_of_leadsDown ((Path.LeadsDown.refl root).join (h.aggregatorPath hnamed v root)),
    _, s.layout.usedReduxDir_mem v root, rfl⟩

/-- The lists of screens keep their paths. -/
theorem aggregatorPath_of_listPath {registry : Path} (h : s.listPath a = some registry) (v : Volume)
    (root : Path) : s.aggregatorPath a v root = registry := by
  cases a with
  | screenRegistry | loginRegistry => exact Option.some.inj h
  | reducerRegistry | apiFunctions | screenApi _ => cases h

/-- The place of a list of screens. -/
theorem IsDownward.place_list (h : s.IsDownward) {registry : Path}
    (hlist : s.listPath a = some registry) (v : Volume) (root : Path) :
    v.place (root.join registry) = v.place root ++ registry.names ∧
      s.IsRegistryAt a registry.names := by
  have hplace := h.place_registry (frame_ne_none_of_listPath hlist) v root
  rwa [aggregatorPath_of_listPath hlist] at hplace

/-- What stands in the registries of a project in which nothing was before, `entered` being those to
which an entry was added. -/
structure Stands (s : Settings) (root : Path) (entered : Aggregator → Prop) (v : Volume) : Prop where
  /-- There are no links, and the directories above each entry are there. -/
  plain : v.IsPlain
  /-- The root goes up only from directories. -/
  grounded : v.Grounded root
  /-- A list or table whose lines leave nothing open can be patched. If they leave something open, an
  entry was added and the declaration is lost. -/
  texts : ∀ a, a.frame ≠ none → ∀ names, s.IsRegistryAt a names → ∀ c,
    v.disk.get? (v.place root ++ names) = some (.file c) → ∃ t, c = .text t ∧
      (¬s.LeavesOpen a → a.Holds t) ∧
        (s.LeavesOpen a → entered a ∧ a.anchor.locate t.toList = none)
  /-- A list whose declaration is lost can be read. -/
  reads : ∀ a, s.LeavesOpen a → entered a → ∀ registry ∈ s.listPath a, ∃ t,
    v.readText (root.join registry) = .ok t

namespace Stands

variable {entered : Aggregator → Prop}

/-- In a project without files there are no registries. -/
theorem start (hv : v.IsPlain) (hroot : v.Grounded root)
    (hempty : ∀ names c, v.disk.get? (v.place root ++ names) ≠ some (.file c)) :
    s.Stands root (fun _ => False) v where
  plain := hv
  grounded := hroot
  texts _ _ names _ c hfile := absurd hfile (hempty names c)
  reads _ _ hno := hno.elim

/-- What stands in the registries depends only on which of them got an entry. -/
theorem congr {entered' : Aggregator → Prop} (h : s.Stands root entered v)
    (hsame : ∀ a, entered' a ↔ entered a) : s.Stands root entered' v := by
  rwa [funext fun a => propext (hsame a)]

/-- Work that leaves the directories, and the places of registries but for those to which an entry is
added, as they are. -/
theorem change {entered' : Aggregator → Prop} (h : s.Stands root entered v) (hspares : Spares v w [])
    (hmore : ∀ a, entered a → entered' a)
    (htexts : ∀ a, a.frame ≠ none → ∀ names, s.IsRegistryAt a names →
      Unaltered v w (v.place root ++ names) ∨
        ∃ t, w.disk.get? (v.place root ++ names) = some (.file (.text t)) ∧
          (¬s.LeavesOpen a → a.Holds t) ∧
            (s.LeavesOpen a → entered' a ∧ a.anchor.locate t.toList = none))
    (hreads : ∀ a, entered' a → ∀ registry ∈ s.listPath a,
      entered a ∧ Unaltered v w (v.place (root.join registry)) ∨
        ∃ t, w.readText (root.join registry) = .ok t) : s.Stands root entered' w where
  plain := hspares.plain
  grounded := hspares.grounded h.grounded
  texts a ha names hat c hfile := by
    rw [hspares.place_eq] at hfile
    rcases htexts a ha names hat with hsame | ⟨t, ht, hstands⟩
    · obtain ⟨t, htext, hsound, hlost⟩ := h.texts a ha names hat c (hsame.get?_of_file hfile)
      exact ⟨t, htext, hsound, fun hopen => ⟨hmore a (hlost hopen).1, (hlost hopen).2⟩⟩
    · rw [ht, Option.some.injEq, Entry.file.injEq] at hfile
      exact ⟨t, hfile.symm, hstands⟩
  reads a hopen hentered registry hlist := by
    rcases hreads a hentered registry hlist with ⟨hbefore, hsame⟩ | hread
    · obtain ⟨t, hread⟩ := h.reads a hopen hbefore registry hlist
      exact ⟨t, readText_of_dirs h.plain.disk.links hspares.cwd hspares.dirs hread
        (hsame.get?_eq_some (get?_of_readText h.plain.disk.links hread))⟩
    · exact hread

/-- The files of a request leave the registries as they are. -/
theorem filed (h : s.Stands root entered v) (hs : s.IsApart) (hstate : s.LeavesState) {r : Request}
    {tree : FileTree} {e : Template.RegistryEntry} (hprepares : s.Prepares v root r tree e) :
    s.Stands root entered (s.filed v root r tree) := by
  have hfiled : Filed v (root.join (s.layout.directory v root r.archetype)) tree.files _
      (s.filed v root r tree) := placeFiles_filed h.plain _ tree.files
  have hspares : Spares v (s.filed v root r tree) [] := hfiled.added.spares_root
  have hsame : ∀ a, a.frame ≠ none → ∀ names, s.IsRegistryAt a names →
      Unaltered v (s.filed v root r tree) (v.place root ++ names) := by
    intro a ha names hat
    refine hfiled.unaltered fun p hp => ?_
    obtain ⟨f, hf, rfl, -⟩ := hfiled.created p hp
    exact (hs.ne_target hstate hprepares ha hat hf).symm
  refine h.change hspares (fun _ => id) (fun a ha names hat => .inl (hsame a ha names hat))
    fun a hentered registry hlist => .inl ⟨hentered, ?_⟩
  obtain ⟨hplace, hat⟩ := hs.downward.place_list hlist v root
  rw [hplace]
  exact hsame a (frame_ne_none_of_listPath hlist) _ hat

/-- No entry can be added to a registry whose lines leave something open, if it is there. -/
theorem withEntry_eq_none (h : s.Stands root entered v) (hs : s.IsApart) (ha : a.frame ≠ none)
    (hopen : s.LeavesOpen a)
    (hfile : v.disk.get? (v.place (root.join (s.aggregatorPath a v root))) = some (.file (.text text))) :
    entered a ∧ a.withEntry (s.aggregatorPath a v root) entry text = none := by
  obtain ⟨hplace, hat⟩ := hs.downward.place_registry ha v root
  rw [hplace] at hfile
  obtain ⟨t, htext, -, hlost⟩ := h.texts a ha _ hat _ hfile
  obtain rfl := Content.text.inj htext
  obtain ⟨hentered, hnone⟩ := hlost hopen
  refine ⟨hentered, ?_⟩
  rw [Aggregator.withEntry, Script.applyPatch, hnone]
  rfl

section Registration

variable (h : s.Stands root entered v) (hs : s.IsApart) (ha : a.frame ≠ none)
  (hadds : s.Adds a (s.aggregatorPath a v root) entry)

include h hs ha hadds

/-- An entry can be added to a text in which the declaration is not lost. It stays so if the lines leave
nothing open, and it is lost otherwise. -/
theorem withEntry_cases (hread : s.aggregatorText a v root = .ok (text, seeded)) :
    (s.LeavesOpen a ∧ entered a ∧ a.withEntry (s.aggregatorPath a v root) entry text = none) ∨
      ∃ t, a.withEntry (s.aggregatorPath a v root) entry text = some t ∧
        (¬s.LeavesOpen a → a.Holds t) ∧ (s.LeavesOpen a → a.anchor.locate t.toList = none) := by
  rcases aggregatorText_cases h.plain.disk.links hread with rfl | hfile
  · right
    by_cases hopen : s.LeavesOpen a
    · obtain ⟨t, ht, hlost⟩ := hadds.exists_lost ha hopen s.layout (s.aggregatorPath a v root)
      exact ⟨t, ht, fun hno => absurd hopen hno, fun _ => hlost⟩
    · obtain ⟨t, ht, hholds⟩ :=
        hadds.exists_holds ha hopen (Aggregator.holds_seed ha s.layout (s.aggregatorPath a v root))
      exact ⟨t, ht, fun _ => hholds, fun hyes => absurd hyes hopen⟩
  · by_cases hopen : s.LeavesOpen a
    · exact .inl ⟨hopen, h.withEntry_eq_none hs ha hopen hfile⟩
    · obtain ⟨hplace, hat⟩ := hs.downward.place_registry ha v root
      rw [hplace] at hfile
      obtain ⟨t', htext, hsound, -⟩ := h.texts a ha _ hat _ hfile
      obtain rfl := Content.text.inj htext
      obtain ⟨t, ht, hholds⟩ := hadds.exists_holds ha hopen (hsound hopen)
      exact .inr ⟨t, ht, fun _ => hholds, fun hyes => absurd hyes hopen⟩

/-- The place for an entry is missed exactly if the lines of the registry leave something open and it has
got an entry. -/
theorem missesAnchor_register_iff :
    (s.register a v root entry).1.MissesAnchor ↔ s.LeavesOpen a ∧ entered a := by
  rw [missesAnchor_iff]
  constructor
  · rintro ⟨text, seeded, hread, hnone⟩
    obtain ⟨hopen, hentered, -⟩ | ⟨t, ht, -⟩ := h.withEntry_cases hs ha hadds hread
    · exact ⟨hopen, hentered⟩
    · cases hnone.symm.trans ht
  · rintro ⟨hopen, hentered⟩
    obtain ⟨registry, hlist, -⟩ := id hopen
    obtain ⟨text, hread⟩ := h.reads a hopen hentered registry hlist
    rw [← aggregatorPath_of_listPath hlist v root] at hread
    exact ⟨text, false, aggregatorText_of_readText hread,
      (h.withEntry_eq_none hs ha hopen (get?_of_readText h.plain.disk.links hread)).2⟩

/-- The adding of an entry changes one registry, if any. -/
theorem register (hstate : s.LeavesState) :
    s.Stands root
      (fun b => entered b ∨ ∃ path seeded, (s.register a v root entry).1 = .patched b path seeded)
      (s.register a v root entry).2 := by
  have hspares := register_spares_root h.plain s a root entry
  obtain ⟨hplace, hat⟩ := hs.downward.place_registry ha v root
  rcases register_unaltered h.plain s a root entry with ⟨hfailed, hsame⟩ | ⟨seeded, hdone, hrest⟩
  · refine h.change hspares (fun _ => .inl) (fun b hb names hbt => .inl (hsame _)) ?_
    rintro b (hentered | ⟨path, seeded, hdone⟩) registry -
    · exact .inl ⟨hentered, hsame _⟩
    · exact absurd hdone (hfailed b path seeded)
  · obtain ⟨-, -, text, t, htext, ht, hread⟩ := exists_of_patched h.plain hdone
    -- two registries are never in one place, so only the text of this one is new
    have hother : ∀ b names, b.frame ≠ none → s.IsRegistryAt b names →
        (b ≠ a ∨ names ≠ (s.aggregatorPath a v root).names) →
          Unaltered v (s.register a v root entry).2 (v.place root ++ names) := by
      intro b names hb hbt hne
      refine hrest _ ?_
      rw [hplace]
      intro heq
      obtain rfl := List.append_cancel_left heq
      exact hne.elim (fun hne => hne (hs.registry_inj hstate hb ha hbt hat)) fun hne => hne rfl
    refine h.change hspares (fun _ => .inl) (fun b hb names hbt => ?_) fun b hentered registry hlist => ?_
    · by_cases hsame : b = a ∧ names = (s.aggregatorPath a v root).names
      · obtain ⟨rfl, rfl⟩ := hsame
        have hfile := get?_of_readText hspares.plain.disk.links hread
        rw [hspares.place_eq, hplace] at hfile
        obtain ⟨-, -, hnone⟩ | ⟨t', ht', hsound, hlost⟩ := h.withEntry_cases hs ha hadds htext
        · cases ht.symm.trans hnone
        · obtain rfl := Option.some.inj (ht.symm.trans ht')
          exact .inr ⟨t, hfile, hsound, fun hopen => ⟨.inr ⟨_, seeded, hdone⟩, hlost hopen⟩⟩
      · exact .inl (hother b names hb hbt (not_and_or.mp hsame))
    · by_cases hsame : b = a
      · subst hsame
        rw [aggregatorPath_of_listPath hlist] at hread
        exact .inr ⟨t, hread⟩
      · obtain ⟨hbplace, hbt⟩ := hs.downward.place_list hlist v root
        rw [hbplace]
        refine .inl ⟨hentered.resolve_right ?_,
          hother b _ (frame_ne_none_of_listPath hlist) hbt (.inl hsame)⟩
        rintro ⟨path, seeded', hdone'⟩
        exact hsame (PatchOutcome.patched.inj (hdone'.symm.trans hdone)).1

end Registration

end Stands

/-- The entry of a request for a screen or a slice, when its files have been made. -/
theorem Prepares.adds {r : Request} {tree : FileTree} {e : Template.RegistryEntry} {report : Report}
    (h : s.Prepares v root r tree e) (hs : s.IsApart) (hquiet : s.IsQuiet) (hv : v.IsPlain)
    (hroot : v.Grounded root)
    (hmade : v.materialize (root.join (s.layout.directory v root r.archetype)) tree =
      ((report, none), w)) :
    e.aggregator.frame ≠ none ∧ s.Adds e.aggregator (s.aggregatorPath e.aggregator w root)
      (e.entry.rootedAt (s.layout.directory v root r.archetype)) := by
  cases h with
  | @screen list name hlist hname hdirectory hfiles =>
    obtain ⟨registry, hpath⟩ : ∃ registry, s.listPath list = some registry := by
      rcases hlist with rfl | rfl <;> exact ⟨_, rfl⟩
    refine ⟨frame_ne_none_of_listPath hpath, ?_⟩
    have hadds := hs.adds_screen hquiet hpath hname
    rw [hdirectory]
    rwa [← aggregatorPath_of_listPath hpath w root] at hadds
  | @slice name f hname hdirectory hfiles hpath =>
    refine ⟨by simp [Template.reducerEntry, Aggregator.frame], ?_⟩
    rw [hdirectory] at hmade ⊢
    rw [aggregatorPath, hs.usedReduxDir_eq hv hroot hname hfiles hpath hmade]
    exact hs.adds_slice (hs.downward.stateDir (s.layout.usedReduxDir_mem v root)).1 hname

/-- What comes of a request for a screen or a slice: it is refused, or its files cannot all be made, or its
entry is added when they are there. -/
theorem generate_cases (s : Settings) (hs : s.IsDownward) (v : Volume) (root : Path) {r : Request}
    (hr : r.archetype = .screen ∨ r.archetype = .loginScreen ∨ r.archetype = .reducer) :
    (∃ e, s.generate v root r = (.error e, v)) ∨
      (∃ tree e o, s.Prepares v root r tree e ∧
        s.generate v root r = (.ok o, s.filed v root r tree) ∧ o.patch = none) ∨
      ∃ tree e report w o, s.Prepares v root r tree e ∧
        v.materialize (root.join (s.layout.directory v root r.archetype)) tree =
          ((report, none), w) ∧
        s.generate v root r = (.ok o, (s.register e.aggregator w root
          (e.entry.rootedAt (s.layout.directory v root r.archetype))).2) ∧
        o.patch = some (s.register e.aggregator w root
          (e.entry.rootedAt (s.layout.directory v root r.archetype))).1 := by
  have hresult := s.generate_outcomeOf v root r
  generalize s.generate v root r = result at hresult ⊢
  cases hresult with
  | refused => exact .inl ⟨_, rfl⟩
  | @stopped tree _ _ _ _ hprepare hmade =>
    obtain ⟨e, -, hprepares⟩ := hs.prepares hr hprepare
    have hfiled : s.filed v root r tree = _ := congrArg Prod.snd hmade
    exact .inr (.inl ⟨tree, e, _, hprepares, by rw [hfiled], rfl⟩)
  | filed hprepare =>
    obtain ⟨e, he, -⟩ := hs.prepares hr hprepare
    cases he
  | @registered tree e report patch w _ hprepare hmade hregister =>
    obtain ⟨_, ⟨⟩, hprepares⟩ := hs.prepares hr hprepare
    refine .inr (.inr ⟨tree, e, report, w, ⟨r.archetype, report, none, some patch⟩, hprepares, hmade,
      ?_⟩)
    rw [hregister]
    exact ⟨rfl, rfl⟩

namespace Stands

variable {entered : Aggregator → Prop}

/-- A request for a screen or a slice adds an entry to one registry at most, and it misses the place for
it exactly if the lines of the registry leave something open and it has got an entry before. -/
theorem generate (h : s.Stands root entered v) (hs : s.IsApart) (hstate : s.LeavesState)
    (hquiet : s.IsQuiet) {r : Request}
    (hr : r.archetype = .screen ∨ r.archetype = .loginScreen ∨ r.archetype = .reducer) :
    s.Stands root (fun a => entered a ∨ ∃ o, (s.generate v root r).1 = .ok o ∧ o.Patches a)
        (s.generate v root r).2 ∧
      ∀ o patch, (s.generate v root r).1 = .ok o → o.patch = some patch →
        (patch.MissesAnchor ↔ s.LeavesOpen patch.aggregator ∧ entered patch.aggregator) := by
  rcases s.generate_cases hs.downward v root hr with ⟨e, hrefused⟩ |
    ⟨tree, e, o, hprepares, hgenerate, hpatch⟩ |
    ⟨tree, e, report, w, o, hprepares, hmade, hgenerate, hpatch⟩
  · rw [hrefused]
    exact ⟨h.congr fun a => by simp, by simp⟩
  · rw [hgenerate]
    refine ⟨(h.filed hs hstate hprepares).congr fun a => ?_, fun o' patch ho hsome => ?_⟩
    · simp [Outcome.Patches, hpatch]
    · rw [← Except.ok.inj ho, hpatch] at hsome
      cases hsome
  · have hfiled := h.filed hs hstate hprepares
    rw [Settings.filed, hmade] at hfiled
    obtain ⟨hframe, hadds⟩ := hprepares.adds hs hquiet h.plain h.grounded hmade
    rw [hgenerate]
    refine ⟨(hfiled.register hs hframe hadds hstate).congr fun a => ?_, fun o' patch ho hsome => ?_⟩
    · simp [Outcome.Patches, hpatch]
    · rw [← Except.ok.inj ho, hpatch] at hsome
      obtain rfl := Option.some.inj hsome
      rw [aggregator_register]
      exact hfiled.missesAnchor_register_iff hs hframe hadds

/-- Along a run of requests an outcome misses the place for its entry exactly if the lines of its registry
leave something open and the registry has got an entry before. -/
theorem missesAnchor_iff (h : s.Stands root entered v) (hs : s.IsApart) (hstate : s.LeavesState)
    (hquiet : s.IsQuiet) {rs : List Request}
    (hrs : ∀ r ∈ rs, r.archetype = .screen ∨ r.archetype = .loginScreen ∨ r.archetype = .reducer)
    {i : ℕ} {kind : Archetype} {o : Outcome} {patch : PatchOutcome}
    (hi : (s.generateAll v root rs).1[i]? = some (kind, .ok o)) (hpatch : o.patch = some patch) :
    patch.MissesAnchor ↔ s.LeavesOpen patch.aggregator ∧ (entered patch.aggregator ∨
      ∃ earlier ∈ outcomesOf ((s.generateAll v root rs).1.take i),
        earlier.Patches patch.aggregator) := by
  -- the registries that got an entry are left free, for they become more with every request
  induction rs generalizing v entered i with
  | nil => cases hi
  | cons r rs ih =>
    obtain ⟨hfirst, hrest⟩ := List.forall_mem_cons.mp hrs
    obtain ⟨hnext, hmisses⟩ := h.generate hs hstate hquiet hfirst
    rw [generateAll_cons] at hi ⊢
    cases i with
    | zero =>
      have ho : (s.generate v root r).1 = .ok o := (Prod.mk.inj (Option.some.inj hi)).2
      rw [hmisses o patch ho hpatch]
      simp [outcomesOf]
    | succ i =>
      rw [ih hnext hrest hi, List.take_succ_cons]
      simp only [mem_outcomesOf_cons, or_and_right, exists_or, or_assoc]

end Stands

/-- In a project without files, a request for a screen or a slice misses the place for its entry exactly if
the import lines of the registry leave a string or a comment open and it has got an entry before. -/
theorem generateAll_missesAnchor_iff (s : Settings) (h : s.IsApart) (hstate : s.LeavesState)
    (hquiet : s.IsQuiet) {v : Volume} (hv : v.IsPlain) {root : Path} (hroot : v.Grounded root)
    (hempty : ∀ names c, v.disk.get? (v.place root ++ names) ≠ some (.file c)) {rs : List Request}
    (hrs : ∀ r ∈ rs, r.archetype = .screen ∨ r.archetype = .loginScreen ∨ r.archetype = .reducer) :
    ∀ i kind o patch, (s.generateAll v root rs).1[i]? = some (kind, .ok o) → o.patch = some patch →
      (patch.MissesAnchor ↔ s.LeavesOpen patch.aggregator ∧
        ∃ earlier ∈ outcomesOf ((s.generateAll v root rs).1.take i),
          earlier.Patches patch.aggregator) := by
  intro i kind o patch hi hpatch
  have hmisses := (Stands.start hv hroot hempty).missesAnchor_iff h hstate hquiet hrs hi hpatch
  simpa using hmisses

/-- Without quotes and backslashes in the names of the directory of the screens no request misses the
place for its entry. -/
theorem generateAll_not_missesAnchor (s : Settings) (h : s.IsApart) (hstate : s.LeavesState)
    (hplain : ∀ t ∈ s.layout.screensDir.names, ∀ c ∈ t.toList, Script.isQuote c = false ∧ c ≠ '\\')
    {v : Volume} (hv : v.IsPlain) {root : Path} (hroot : v.Grounded root)
    (hempty : ∀ names c, v.disk.get? (v.place root ++ names) ≠ some (.file c)) {rs : List Request}
    (hrs : ∀ r ∈ rs, r.archetype = .screen ∨ r.archetype = .loginScreen ∨ r.archetype = .reducer) :
    ∀ o ∈ outcomesOf (s.generateAll v root rs).1, ∀ patch ∈ o.patch, ¬patch.MissesAnchor := by
  obtain ⟨hquiet, hopen⟩ := h.isQuiet_of_plain hplain
  intro o ho patch hpatch hmissed
  obtain ⟨⟨kind, result⟩, hmem, hresult⟩ := List.mem_filterMap.mp ho
  cases result with
  | error e => cases hresult
  | ok o' =>
    obtain rfl := Option.some.inj hresult
    obtain ⟨i, hi⟩ := List.getElem?_of_mem hmem
    have hmisses := (Stands.start hv hroot hempty).missesAnchor_iff h hstate hquiet hrs hi hpatch
    exact hopen _ (hmisses.mp hmissed).1

/-- Settings in which the directory of the screens has a quote in its name. -/
def quoted : Settings := { layout := { screensDir := ⟨"it\x27s", []⟩ } }

/-- The settings meet all that is asked for, and the import lines of screens leave a string open. -/
theorem isApart_quoted : quoted.IsApart ∧ quoted.LeavesState ∧ quoted.IsQuiet ∧
    quoted.LeavesOpen .screenRegistry := by
  have hordinary : ∀ p ∈ ({} : Layout).paths, p.IsOrdinary := by decide
  have hscreens : (⟨"it\x27s", []⟩ : Path).IsDownward :=
    (Path.isDownward_of_entryNames _ [] (by simpa using ⟨by decide, by decide⟩)).1
  have hdown : quoted.IsDownward := by
    refine ⟨fun p hp => ?_, by decide⟩
    rcases List.mem_cons.mp hp with rfl | hp
    · exact hscreens
    · exact (hordinary p (List.mem_cons_of_mem _ hp)).isDownward
  have hapart : quoted.IsApart := ⟨hdown, by decide, by decide⟩
  refine ⟨hapart, ?_, hapart.isQuiet (by decide), _, rfl, "Home", by decide, by decide +kernel⟩
  intro registry hregistry names hnames heq
  have hlower : quoted.layout.lowerReduxDir.names = ["src", "redux"] := by decide +kernel
  have hsecond : ∀ registry ∈ [quoted.layout.screenRegistry, quoted.layout.loginRegistry],
      registry.names[1]? = some "Navigation" := by decide
  have hredux : (["src", "redux"] ++ names)[1]? = some "redux" := rfl
  rw [← hlower, ← heq, hsecond registry hregistry] at hredux
  exact absurd hredux (by decide)

/-- Where the screens are. -/
theorem join_quoted : Path.join ⟨".", []⟩ quoted.layout.screensDir = ⟨".", ["it\x27s"]⟩ := by decide

/-- What is in a project with one screen, besides the list of it. -/
def homeProject (text style index : String) : Volume :=
  ⟨⟨[(["it\x27s", "Home", "index.js"], .file (.text index)),
    (["it\x27s", "Home", "Home.style.js"], .file (.text style)),
    (["it\x27s", "Home", "Home.jsx"], .file (.text text)),
    (["it\x27s", "Home"], .dir), (["it\x27s"], .dir)]⟩, []⟩

/-- A project with one screen and the list of it. -/
def listedProject (list text style index : String) : Volume :=
  ⟨⟨(["src", "Navigation", "screens", "StackScreens.jsx"], .file (.text list)) ::
    (["src", "Navigation", "screens"], .dir) :: (["src", "Navigation"], .dir) :: (["src"], .dir) ::
      (homeProject text style index).disk.entries⟩, []⟩

section Small

-- what the operations on a small disk come to is found by following them
attribute [local simp] placeFiles placeFile createNew createFile exists? mkdirParent mkdirAll chain
  mkdirChain mkdir isDir find? Volume.set Disk.set Disk.get? locate walk Disk.steps bareSteps
  segmentStep Path.join Path.parent Path.ofReversed Path.idle Path.isAbsolute Path.empty
  Report.precede List.lookup_cons Except.isOk Except.toBool homeProject listedProject

/-- The files of a screen are made in an empty directory. -/
theorem placeFiles_home (text style index d d' d'' : String) :
    Volume.placeFiles ⟨⟨[]⟩, []⟩ ⟨".", ["it\x27s"]⟩
        [⟨⟨"Home", ["Home.jsx"]⟩, text, d⟩, ⟨⟨"Home", ["Home.style.js"]⟩, style, d'⟩,
          ⟨⟨"Home", ["index.js"]⟩, index, d''⟩] =
      ((⟨[⟨".", ["it\x27s", "Home", "Home.jsx"]⟩, ⟨".", ["it\x27s", "Home", "Home.style.js"]⟩,
          ⟨".", ["it\x27s", "Home", "index.js"]⟩], []⟩, none), homeProject text style index) := by
  have hadmissible : ∀ rest ∈ [[], ["it\x27s"], ["it\x27s", "Home"], ["it\x27s", "Home", "Home.jsx"],
      ["it\x27s", "Home", "Home.style.js"], ["it\x27s", "Home", "index.js"]],
      admissible ⟨".", rest⟩ = .ok () := by decide
  simp only [List.forall_mem_cons] at hadmissible
  simp +decide [hadmissible]

/-- There is no list of screens yet, and it can be written. -/
theorem write_stackScreens (list text style index : String) :
    exists? (homeProject text style index)
        ⟨".", ["src", "Navigation", "screens", "StackScreens.jsx"]⟩ = false ∧
      PatchedFile.write ⟨⟨".", ["src", "Navigation", "screens", "StackScreens.jsx"]⟩, list, true⟩
        (homeProject text style index) = (.ok (), listedProject list text style index) := by
  have hadmissible : ∀ rest ∈ [[], ["src"], ["src", "Navigation"], ["src", "Navigation", "screens"],
      ["src", "Navigation", "screens", "StackScreens.jsx"]], admissible ⟨".", rest⟩ = .ok () := by
    decide
  simp only [List.forall_mem_cons] at hadmissible
  constructor
  · simp +decide [hadmissible]
  · simp +decide [hadmissible, PatchedFile.write, writeFile]

/-- The files of a second screen can be made. -/
theorem placeFiles_about (list text style index text' style' index' d d' d'' : String) :
    ((listedProject list text style index).placeFiles ⟨".", ["it\x27s"]⟩
        [⟨⟨"About", ["About.jsx"]⟩, text', d⟩, ⟨⟨"About", ["About.style.js"]⟩, style', d'⟩,
          ⟨⟨"About", ["index.js"]⟩, index', d''⟩]).1.2 = none := by
  have hadmissible : ∀ rest ∈ [[], ["it\x27s"], ["it\x27s", "About"], ["it\x27s", "About", "About.jsx"],
      ["it\x27s", "About", "About.style.js"], ["it\x27s", "About", "index.js"]],
      admissible ⟨".", rest⟩ = .ok () := by decide
  simp only [List.forall_mem_cons] at hadmissible
  simp +decide [hadmissible]

end Small

/-- The first screen gets its entry in a new list. -/
theorem generate_home : ∃ o list text style index,
    quoted.generate ⟨⟨[]⟩, []⟩ ⟨".", []⟩ (Request.screen "Home") =
      (.ok o, listedProject list text style index) ∧ o.Patches .screenRegistry := by
  obtain ⟨hapart, -, hquiet, hopen⟩ := isApart_quoted
  obtain ⟨text, style, index, d, d', d'', hprepare⟩ : ∃ text style index d d' d'',
      quoted.prepare ⟨⟨[]⟩, []⟩ ⟨".", []⟩ (Request.screen "Home") =
        .ok (⟨[⟨⟨"Home", ["Home.jsx"]⟩, text, d⟩, ⟨⟨"Home", ["Home.style.js"]⟩, style, d'⟩,
          ⟨⟨"Home", ["index.js"]⟩, index, d''⟩]⟩, some (Template.screenEntry .screenRegistry "Home")) :=
    ⟨_, _, _, _, _, _, rfl⟩
  have hpath : Path.join ⟨".", []⟩ quoted.layout.screenRegistry =
      ⟨".", ["src", "Navigation", "screens", "StackScreens.jsx"]⟩ := by decide
  have htext : quoted.aggregatorText .screenRegistry (homeProject text style index) ⟨".", []⟩ =
      .ok (Skeleton.text (Aggregator.screenRegistry.seed quoted.layout quoted.layout.screenRegistry),
        true) := by
    rw [aggregatorText, aggregatorPath_of_listPath rfl, hpath]
    exact if_neg (Bool.eq_false_iff.mp (write_stackScreens "" text style index).1)
  have hadds := hapart.adds_screen hquiet (a := .screenRegistry) rfl
    (show Name.isIdentifier "Home" = true by decide)
  obtain ⟨list, hlist, -⟩ := hadds.exists_lost (by decide) hopen quoted.layout
    quoted.layout.screenRegistry
  have hpatch := patchAggregator_eq htext
    ((Template.screenEntry .screenRegistry "Home").entry.rootedAt quoted.layout.screensDir)
  rw [aggregatorPath_of_listPath rfl, hlist, hpath] at hpatch
  have hregister := register_eq _ hpatch
  rw [(write_stackScreens list text style index).2] at hregister
  have hfiles := placeFiles_home text style index d d' d''
  rw [← join_quoted] at hfiles
  have hdir : quoted.layout.directory ⟨⟨[]⟩, []⟩ ⟨".", []⟩ (Request.screen "Home").archetype =
      quoted.layout.screensDir := rfl
  exact ⟨_, list, text, style, index, generate_of_entered hprepare hdir hfiles hregister, _, _, rfl⟩

/-- The files of the second screen are made, and the list is to be patched. -/
theorem generate_about (list text style index : String) : ∃ o patch,
    (quoted.generate (listedProject list text style index) ⟨".", []⟩ (Request.screen "About")).1 =
      .ok o ∧ o.patch = some patch ∧ patch.aggregator = .screenRegistry := by
  obtain ⟨text', style', index', d, d', d'', hprepare⟩ : ∃ text' style' index' d d' d'',
      quoted.prepare (listedProject list text style index) ⟨".", []⟩ (Request.screen "About") =
        .ok (⟨[⟨⟨"About", ["About.jsx"]⟩, text', d⟩, ⟨⟨"About", ["About.style.js"]⟩, style', d'⟩,
          ⟨⟨"About", ["index.js"]⟩, index', d''⟩]⟩, some (Template.screenEntry .screenRegistry "About")) :=
    ⟨_, _, _, _, _, _, rfl⟩
  have hplaced := placeFiles_about list text style index text' style' index' d d' d''
  generalize hmade : (listedProject list text style index).placeFiles ⟨".", ["it\x27s"]⟩ _ = made
    at hplaced
  obtain ⟨⟨report, problem⟩, w⟩ := made
  obtain rfl : problem = none := hplaced
  rw [← join_quoted] at hmade
  have hdir : quoted.layout.directory (listedProject list text style index) ⟨".", []⟩
      (Request.screen "About").archetype = quoted.layout.screensDir := rfl
  have hlist := aggregator_register quoted .screenRegistry w ⟨".", []⟩
    ((Template.screenEntry .screenRegistry "About").entry.rootedAt quoted.layout.screensDir)
  generalize hregister : quoted.register .screenRegistry w ⟨".", []⟩ _ = result at hlist
  obtain ⟨patch, x⟩ := result
  rw [generate_of_entered hprepare hdir hmade hregister]
  exact ⟨_, patch, rfl, rfl, hlist⟩

/-- A second screen in a directory with a quote in its name: the list of screens has lost its place for
entries. -/
theorem generateAll_missesAnchor_quoted : quoted.IsApart ∧ quoted.LeavesState ∧ quoted.IsQuiet ∧
    ∃ o patch, (quoted.generateAll ⟨⟨[]⟩, []⟩ ⟨".", []⟩
        [Request.screen "Home", Request.screen "About"]).1[1]? = some (.screen, .ok o) ∧
      o.patch = some patch ∧ patch.aggregator = .screenRegistry ∧ patch.MissesAnchor := by
  obtain ⟨hapart, hstate, hquiet, hopen⟩ := isApart_quoted
  obtain ⟨first, list, text, style, index, hfirst, hpatched⟩ := generate_home
  obtain ⟨o, patch, hsecond, hpatch, hlist⟩ := generate_about list text style index
  have hresults : (quoted.generateAll ⟨⟨[]⟩, []⟩ ⟨".", []⟩
      [Request.screen "Home", Request.screen "About"]).1 = [(.screen, .ok first), (.screen, .ok o)] := by
    rw [generateAll_cons, hfirst, generateAll_cons, hsecond]
    rfl
  have hroot : Grounded ⟨⟨[]⟩, []⟩ ⟨".", []⟩ := by
    intro front back hsteps
    have hup : .up ∈ Disk.steps ⟨".", []⟩ := by
      rw [hsteps]
      simp
    exact absurd hup (by decide)
  have hempty : ∀ names c, Disk.get? ⟨[]⟩ (Volume.place ⟨⟨[]⟩, []⟩ ⟨".", []⟩ ++ names) ≠
      some (.file c) := by
    intro names c
    cases names <;> exact nofun
  have hkinds : ∀ r ∈ [Request.screen "Home", Request.screen "About"],
      r.archetype = .screen ∨ r.archetype = .loginScreen ∨ r.archetype = .reducer := by
    decide
  have hi : (quoted.generateAll ⟨⟨[]⟩, []⟩ ⟨".", []⟩
      [Request.screen "Home", Request.screen "About"]).1[1]? = some (.screen, .ok o) := by
    rw [hresults]
    rfl
  refine ⟨hapart, hstate, hquiet, o, patch, hi, hpatch, hlist, ?_⟩
  refine (generateAll_missesAnchor_iff quoted hapart hstate hquiet isPlain_here hroot hempty hkinds 1
    .screen o patch hi hpatch).mpr ?_
  rw [hlist, hresults]
  exact ⟨hopen, first, by simp [outcomesOf, Except.toOption], hpatched⟩

end Settings

end AppScaffold
