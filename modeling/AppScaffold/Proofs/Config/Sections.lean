import AppScaffold.Config.Section
import AppScaffold.Proofs.Config.Overlays
import AppScaffold.Proofs.Loop
import Mathlib.Data.List.Basic
import Mathlib.Tactic.Common

/-!
# Sections and their settings

There are four sections, and nineteen settings in them. Each setting is read and written at a place of its
own. So a table gives a section exactly if each of its settings is what the table has under its name, or
its default where the table has nothing; in which order the settings are taken, and what else is in the
table, makes no difference. Nor does it make a difference where the value of a setting is from.
-/

namespace AppScaffold

/-- A setting of a record: what it is taken as, and where the record holds it. -/
structure Setting (σ : Type) where
  /-- Its name in a table. -/
  name : String
  /-- Its place in a list. -/
  position : Nat
  /-- The type of its values. -/
  {α : Type}
  /-- What it is taken as. -/
  take : SettingTree → Except Mismatch α
  /-- Where the record holds it. -/
  get : σ → α
  /-- The record with another value. -/
  put : α → σ → σ
  /-- A value that is put is held. -/
  get_put : ∀ a r, get (put a r) = a

namespace Setting

variable {σ : Type} {settings : List (Setting σ)} {entries : Entries SettingTree} {r s : σ}

/-- The field of the setting. -/
def field (x : Setting σ) : Field σ := .of x.name x.position x.take x.put

/-- Two settings have different names, and neither is changed with the other. -/
structure Apart (x y : Setting σ) : Prop where
  /-- The names are different. -/
  name : x.name ≠ y.name
  /-- The first one stays when the second one is changed. -/
  left : ∀ a r, x.get (y.put a r) = x.get r
  /-- The second one stays when the first one is changed. -/
  right : ∀ a r, y.get (x.put a r) = y.get r

/-- A setting has the value that was found for it, or that of the defaults if none was found. -/
def Takes (x : Setting σ) (found : Option SettingTree) (defaults r : σ) : Prop :=
  found.elim (x.get r = x.get defaults) fun t => x.take t = .ok (x.get r)

/-- The settings of a record are apart, and nothing else is in it. -/
structure Cover (settings : List (Setting σ)) : Prop where
  /-- No two of them have to do with one another. -/
  apart : settings.Pairwise Apart
  /-- Records with the same settings are the same. -/
  ext : ∀ r s : σ, (∀ x ∈ settings, x.get r = x.get s) → r = s

/-- The record with the setting as it was found, or as it is if nothing was found. -/
def step (x : Setting σ) (found : Option SettingTree) (r : σ) : Except Mismatch σ :=
  found.elim (.ok r) fun t => SettingTree.within x.name (x.field.set t r)

/-- A field is set to what its setting is taken as, if it can be taken. -/
theorem within_set_eq_ok_iff (x : Setting σ) {t : SettingTree} {name : String} :
    SettingTree.within name (x.field.set t r) = .ok s ↔ ∃ a, x.take t = .ok a ∧ s = x.put a r := by
  change ((x.take t).map fun a => x.put a r).mapError (Mismatch.inside name) = .ok s ↔ _
  cases x.take t with
  | error e => simp [Except.mapError, Except.map]
  | ok a => simp [Except.mapError, Except.map, eq_comm]

/-- A table changes a record setting by setting. -/
theorem fromEntries_cons {x : Setting σ} : Field.fromEntries entries ((x :: settings).map field) r =
    x.step (entries.lookup x.name) r >>= Field.fromEntries entries (settings.map field) := by
  have hname : x.field.name = x.name := rfl
  rw [List.map_cons, Field.fromEntries, step, hname]
  cases entries.lookup x.name with
  | none => rfl
  | some t =>
    dsimp only [Option.elim_some]
    cases SettingTree.within x.name (x.field.set t r) <;> rfl

section Step

variable {x y : Setting σ} {found : Option SettingTree} {defaults defaults' r' : σ}

/-- Records with the same setting take the same for it. -/
theorem Takes.congr (h : x.Takes found defaults r) (hdefaults : x.get defaults = x.get defaults')
    (hr : x.get r = x.get r') : x.Takes found defaults' r' := by
  unfold Takes at h ⊢
  rwa [← hdefaults, ← hr]

/-- Two records that take the same for a setting have the same setting. -/
theorem Takes.unique (h : x.Takes found defaults r) (h' : x.Takes found defaults r') :
    x.get r = x.get r' := by
  cases found with
  | none => exact Eq.trans h (Eq.symm h')
  | some t => exact Except.ok.inj (Eq.trans (Eq.symm h) h')

/-- After a step the setting is what was found for it. -/
theorem takes_of_step (hstep : x.step found r = .ok s) : x.Takes found r s := by
  cases found with
  | none => exact congrArg x.get (Except.ok.inj hstep).symm
  | some t =>
    obtain ⟨a, htake, rfl⟩ := x.within_set_eq_ok_iff.mp hstep
    exact htake.trans (congrArg _ (x.get_put a r).symm)

/-- A step keeps what has nothing to do with its setting. -/
theorem get_of_step (h : ∀ a r, y.get (x.put a r) = y.get r) (hstep : x.step found r = .ok s) :
    y.get s = y.get r := by
  cases found with
  | none => exact congrArg y.get (Except.ok.inj hstep).symm
  | some t =>
    obtain ⟨a, -, rfl⟩ := x.within_set_eq_ok_iff.mp hstep
    exact h a r

/-- There is a step to what can be taken, from every record. -/
theorem exists_step (h : x.Takes found defaults s) : ∃ r', x.step found r = .ok r' := by
  cases found with
  | none => exact ⟨r, rfl⟩
  | some t => exact ⟨_, x.within_set_eq_ok_iff.mpr ⟨_, h, rfl⟩⟩

end Step

/-- A table changes a record at the settings whose names it has, and nowhere else. -/
theorem takes_of_fromEntries (hapart : settings.Pairwise Apart)
    (h : Field.fromEntries entries (settings.map field) r = .ok s) :
    (∀ x ∈ settings, x.Takes (entries.lookup x.name) r s) ∧
      ∀ y : Setting σ, (∀ x ∈ settings, ∀ a r, y.get (x.put a r) = y.get r) → y.get s = y.get r := by
  induction settings generalizing r with
  | nil =>
    obtain rfl := Except.ok.inj h
    exact ⟨List.forall_mem_nil _, fun _ _ => rfl⟩
  | cons x settings ih =>
    obtain ⟨hx, hrest⟩ := List.pairwise_cons.mp hapart
    rw [fromEntries_cons] at h
    obtain ⟨r', hstep, h⟩ := exists_of_bind_eq_ok h
    obtain ⟨htakes, hkeeps⟩ := ih hrest h
    constructor
    · refine List.forall_mem_cons.mpr ⟨?_, fun y hy => ?_⟩
      · exact (takes_of_step hstep).congr rfl (hkeeps x fun z hz => (hx z hz).left).symm
      · exact (htakes y hy).congr (get_of_step (hx y hy).right hstep) rfl
    · intro y hy
      rw [hkeeps y fun z hz => hy z (.tail _ hz), get_of_step (hy x List.mem_cons_self) hstep]

/-- A table gives a record if each setting can be taken. -/
theorem exists_fromEntries {defaults : σ}
    (h : ∀ x ∈ settings, x.Takes (entries.lookup x.name) defaults s) :
    ∃ r', Field.fromEntries entries (settings.map field) r = .ok r' := by
  induction settings generalizing r with
  | nil => exact ⟨r, rfl⟩
  | cons x settings ih =>
    obtain ⟨hx, hrest⟩ := List.forall_mem_cons.mp h
    obtain ⟨r', hstep⟩ := exists_step hx
    rw [fromEntries_cons, hstep]
    exact ih hrest

/-- A table gives a record exactly if each setting is what the table has under its name, or the default
if the table has nothing there. -/
theorem fromEntries_eq_ok_iff (h : Cover settings) :
    Field.fromEntries entries (settings.map field) r = .ok s ↔
      ∀ x ∈ settings, x.Takes (entries.lookup x.name) r s := by
  refine ⟨fun hs => (takes_of_fromEntries h.apart hs).1, fun htakes => ?_⟩
  obtain ⟨s', hs'⟩ := exists_fromEntries htakes
  rw [hs', h.ext s' s fun x hx => ?_]
  exact ((takes_of_fromEntries h.apart hs').1 x hx).unique (htakes x hx)

/-- Two tables give the same, mismatches and all, if each setting that is still at its default makes the
same step with both. -/
theorem fromEntries_congr {entries' : Entries SettingTree} (defaults : σ)
    (hapart : settings.Pairwise Apart)
    (hstep : ∀ x ∈ settings, ∀ r, x.get r = x.get defaults →
      x.step (entries.lookup x.name) r = x.step (entries'.lookup x.name) r)
    (hdefaults : ∀ x ∈ settings, x.get r = x.get defaults) :
    Field.fromEntries entries (settings.map field) r =
      Field.fromEntries entries' (settings.map field) r := by
  induction settings generalizing r with
  | nil => rfl
  | cons x settings ih =>
    obtain ⟨hx, hrest⟩ := List.pairwise_cons.mp hapart
    obtain ⟨hxstep, hsteps⟩ := List.forall_mem_cons.mp hstep
    obtain ⟨hxdefault, hkept⟩ := List.forall_mem_cons.mp hdefaults
    rw [fromEntries_cons, fromEntries_cons, ← hxstep r hxdefault]
    cases hr : x.step (entries.lookup x.name) r with
    | error e => rfl
    | ok r' =>
      exact ih hrest hsteps fun y hy => (get_of_step (hx y hy).right hr).trans (hkept y hy)

end Setting

open SettingTree

namespace SettingTree

variable {α : Type} {take : SettingTree → Except Mismatch α}

/-- What is taken as a plain setting: no table, and a value wherever it is from. -/
structure IsPlain (take : SettingTree → Except Mismatch α) : Prop where
  /-- A table is not taken. -/
  refuses : ∀ source entries a, take (.branch source entries) ≠ .ok a
  /-- It makes no difference where a value is from. -/
  blind : ∀ {source a v}, take (.leaf source v) = .ok a → ∀ source', take (.leaf source' v) = .ok a

/-- What is taken as a plain setting is taken as such wherever it is from. -/
theorem IsPlain.take_ofValue (h : IsPlain take) {source : Source} {v : ConfigValue} {a : α}
    (htake : take (.ofValue source v) = .ok a) (source' : Source) :
    take (.ofValue source' v) = .ok a := by
  cases v with
  | table entries =>
    rw [ofValue] at htake
    exact absurd htake (h.refuses _ _ _)
  | _ =>
    rw [ofValue] at htake ⊢
    · exact h.blind htake source'
    all_goals rintro _ ⟨⟩

/-- A truth value is plain. -/
theorem isPlain_asFlag : IsPlain asFlag where
  refuses source entries a h := by cases h
  blind {source a v} h source' := by
    cases v with
    | bool b => exact h
    | _ => cases h

/-- A text is plain, whatever messages call it. -/
theorem isPlain_asTextOf (words : String) : IsPlain (asTextOf words) where
  refuses source entries a h := by cases h
  blind {source a v} h source' := by
    cases v with
    | text s => exact h
    | char c => exact h
    | _ => cases h

/-- A text is plain. -/
theorem isPlain_asText : IsPlain asText := isPlain_asTextOf "a string"

/-- A path is plain. -/
theorem isPlain_asPath : IsPlain asPath where
  refuses source entries a h := by cases h
  blind {source a v} h source' := by
    unfold asPath at h ⊢
    cases htext : asTextOf "path string" (.leaf source v) with
    | error e =>
      rw [htext] at h
      cases h
    | ok s =>
      rw [(isPlain_asTextOf _).blind htext source']
      rwa [htext] at h

/-- The texts of a list are taken wherever it is from. -/
theorem textsFrom_blind {source : Source} {start : Nat} {items : List ConfigValue} {texts : List String}
    (h : textsFrom source start items = .ok texts) (source' : Source) :
    textsFrom source' start items = .ok texts := by
  induction items generalizing start texts with
  | nil => exact h
  | cons item items ih =>
    unfold textsFrom at h ⊢
    obtain ⟨text, htext, h⟩ := exists_of_bind_eq_ok h
    obtain ⟨rest, hrest, h⟩ := exists_of_bind_eq_ok h
    have hitem : within (toString start) (ofValue source' item).asText = .ok text := by
      cases hasText : (ofValue source item).asText with
      | error e =>
        rw [hasText] at htext
        cases htext
      | ok s =>
        rw [hasText] at htext
        rwa [isPlain_asText.take_ofValue hasText source']
    rw [hitem, ih hrest]
    exact h

/-- A list of texts is plain. -/
theorem isPlain_asTexts : IsPlain asTexts where
  refuses source entries a h := by cases h
  blind {source a v} h source' := by
    cases v with
    | list items => exact textsFrom_blind h source'
    | _ => cases h

end SettingTree

/-- A section: a record of settings among all settings. -/
structure Section where
  /-- Its name in a table. -/
  name : String
  /-- Its place in a list. -/
  position : Nat
  /-- What messages call it. -/
  words : String
  /-- The type of the record. -/
  {ρ : Type}
  /-- The settings in it. -/
  settings : List (Setting ρ)
  /-- The record among all settings. -/
  get : Settings → ρ
  /-- All settings with another record. -/
  put : ρ → Settings → Settings
  /-- A record that is put is among all settings. -/
  get_put : ∀ r s, get (put r s) = r
  /-- To put the record that is there changes nothing. -/
  put_get : ∀ s, put (get s) s = s
  /-- The settings make the record up. -/
  cover : Setting.Cover settings
  /-- The settings are no tables. -/
  plain : ∀ x ∈ settings, IsPlain x.take

/-- The section as one setting. -/
def Section.setting (S : Section) : Setting Settings :=
  ⟨S.name, S.position, asRecord S.words (S.settings.map Setting.field) (S.get {}), S.get, S.put,
    S.get_put⟩

/-- The settings of the layout. -/
def Layout.settings : List (Setting Layout) :=
  [⟨"api_dir", 3, asPath, Layout.apiDir, fun p r => { r with apiDir := p }, fun _ _ => rfl⟩,
    ⟨"components_dir", 1, asPath, Layout.componentsDir,
      fun p r => { r with componentsDir := p }, fun _ _ => rfl⟩,
    ⟨"login_registry", 6, asPath, Layout.loginRegistry,
      fun p r => { r with loginRegistry := p }, fun _ _ => rfl⟩,
    ⟨"navigation_dir", 4, asPath, Layout.navigationDir,
      fun p r => { r with navigationDir := p }, fun _ _ => rfl⟩,
    ⟨"redux_dir", 2, asPath, Layout.reduxDir, fun p r => { r with reduxDir := p }, fun _ _ => rfl⟩,
    ⟨"screen_registry", 5, asPath, Layout.screenRegistry,
      fun p r => { r with screenRegistry := p }, fun _ _ => rfl⟩,
    ⟨"screens_dir", 0, asPath, Layout.screensDir,
      fun p r => { r with screensDir := p }, fun _ _ => rfl⟩]

/-- The settings of the extensions. -/
def Extensions.settings : List (Setting Extensions) :=
  [⟨"component", 0, asText, Extensions.component,
      fun s r => { r with component := s }, fun _ _ => rfl⟩,
    ⟨"script", 1, asText, Extensions.script, fun s r => { r with script := s }, fun _ _ => rfl⟩]

/-- The settings of the tools. -/
def Tools.settings : List (Setting Tools) :=
  [⟨"initializer", 0, asText, Tools.initializer,
      fun s r => { r with initializer := s }, fun _ _ => rfl⟩,
    ⟨"initializer_args", 1, asTexts, Tools.initializerArgs,
      fun l r => { r with initializerArgs := l }, fun _ _ => rfl⟩,
    ⟨"initializer_trailing_args", 2, asTexts, Tools.initializerTrailingArgs,
      fun l r => { r with initializerTrailingArgs := l }, fun _ _ => rfl⟩,
    ⟨"installer", 3, asText, Tools.installer, fun s r => { r with installer := s }, fun _ _ => rfl⟩,
    ⟨"installer_args", 4, asTexts, Tools.installerArgs,
      fun l r => { r with installerArgs := l }, fun _ _ => rfl⟩,
    ⟨"packages", 5, asTexts, Tools.packages, fun l r => { r with packages := l }, fun _ _ => rfl⟩]

/-- The settings of the features. -/
def Features.settings : List (Setting Features) :=
  [⟨"ask_api", 1, asFlag, Features.askApi, fun b r => { r with askApi := b }, fun _ _ => rfl⟩,
    ⟨"ask_login", 0, asFlag, Features.askLogin, fun b r => { r with askLogin := b }, fun _ _ => rfl⟩,
    ⟨"initialize_project", 2, asFlag, Features.initializeProject,
      fun b r => { r with initializeProject := b }, fun _ _ => rfl⟩,
    ⟨"install_packages", 3, asFlag, Features.installPackages,
      fun b r => { r with installPackages := b }, fun _ _ => rfl⟩]

/-- The settings of the layout make it up. -/
theorem Layout.cover_settings : Setting.Cover settings where
  apart := by
    simp only [settings, List.pairwise_cons, List.forall_mem_cons, List.not_mem_nil,
      false_imp_iff, implies_true, List.Pairwise.nil, and_true]
    and_intros
    all_goals exact ⟨by decide, fun _ _ => rfl, fun _ _ => rfl⟩
  ext r s h := by
    simp only [settings, List.forall_mem_cons] at h
    cases r
    cases s
    simp_all

/-- The settings of the extensions make it up. -/
theorem Extensions.cover_settings : Setting.Cover settings where
  apart := by
    simp only [settings, List.pairwise_cons, List.forall_mem_cons, List.not_mem_nil,
      false_imp_iff, implies_true, List.Pairwise.nil, and_true]
    exact ⟨by decide, fun _ _ => rfl, fun _ _ => rfl⟩
  ext r s h := by
    simp only [settings, List.forall_mem_cons] at h
    cases r
    cases s
    simp_all

/-- The settings of the tools make it up. -/
theorem Tools.cover_settings : Setting.Cover settings where
  apart := by
    simp only [settings, List.pairwise_cons, List.forall_mem_cons, List.not_mem_nil,
      false_imp_iff, implies_true, List.Pairwise.nil, and_true]
    and_intros
    all_goals exact ⟨by decide, fun _ _ => rfl, fun _ _ => rfl⟩
  ext r s h := by
    simp only [settings, List.forall_mem_cons] at h
    cases r
    cases s
    simp_all

/-- The settings of the features make it up. -/
theorem Features.cover_settings : Setting.Cover settings where
  apart := by
    simp only [settings, List.pairwise_cons, List.forall_mem_cons, List.not_mem_nil,
      false_imp_iff, implies_true, List.Pairwise.nil, and_true]
    and_intros
    all_goals exact ⟨by decide, fun _ _ => rfl, fun _ _ => rfl⟩
  ext r s h := by
    simp only [settings, List.forall_mem_cons] at h
    cases r
    cases s
    simp_all

/-- All settings are plain. -/
theorem Settings.isPlain_settings :
    (∀ x ∈ Extensions.settings, IsPlain x.take) ∧ (∀ x ∈ Features.settings, IsPlain x.take) ∧
      (∀ x ∈ Layout.settings, IsPlain x.take) ∧ ∀ x ∈ Tools.settings, IsPlain x.take := by
  simp [Extensions.settings, Features.settings, Layout.settings, Tools.settings, isPlain_asFlag,
    isPlain_asText, isPlain_asPath, isPlain_asTexts]

/-- All sections, in increasing order of their names. -/
def Settings.sections : List Section :=
  [⟨"extensions", 1, "struct Extensions", Extensions.settings, Settings.extensions,
      fun e s => { s with extensions := e }, fun _ _ => rfl, fun _ => rfl, Extensions.cover_settings,
      isPlain_settings.1⟩,
    ⟨"features", 3, "struct FeatureFlags", Features.settings, Settings.features,
      fun f s => { s with features := f }, fun _ _ => rfl, fun _ => rfl, Features.cover_settings,
      isPlain_settings.2.1⟩,
    ⟨"layout", 0, "struct Layout", Layout.settings, Settings.layout,
      fun l s => { s with layout := l }, fun _ _ => rfl, fun _ => rfl, Layout.cover_settings,
      isPlain_settings.2.2.1⟩,
    ⟨"project", 2, "struct ProjectSettings", Tools.settings, Settings.tools,
      fun t s => { s with tools := t }, fun _ _ => rfl, fun _ => rfl, Tools.cover_settings,
      isPlain_settings.2.2.2⟩]

/-- The fields that are taken from a configuration are those of the sections. -/
theorem Settings.fields_eq : fields = (sections.map Section.setting).map Setting.field := rfl

/-- The sections make all settings up. -/
theorem Settings.cover_sections : Setting.Cover (sections.map Section.setting) where
  apart := by
    simp only [sections, List.map_cons, List.map_nil, List.pairwise_cons, List.forall_mem_cons,
      List.not_mem_nil, false_imp_iff, implies_true, List.Pairwise.nil, and_true]
    and_intros
    all_goals exact ⟨by decide, fun _ _ => rfl, fun _ _ => rfl⟩
  ext r s h := by
    simp only [sections, List.map_cons, List.map_nil, List.forall_mem_cons, Section.setting] at h
    cases r
    cases s
    simp_all

namespace Section

variable {S : Section} {r s : Settings} {source : Source} {entries : Entries SettingTree}

/-- A section that is not given has its defaults. -/
theorem takes_none_iff : S.setting.Takes none {} s ↔
    ∀ x ∈ S.settings, x.Takes none (S.get {}) (S.get s) :=
  ⟨fun h _ _ => congrArg _ h, fun h => S.cover.ext _ _ h⟩

/-- A section that is given as a table has the settings that the table gives. -/
theorem takes_branch_iff : S.setting.Takes (some (.branch source entries)) {} s ↔
    ∀ x ∈ S.settings, x.Takes (entries.lookup x.name) (S.get {}) (S.get s) :=
  Setting.fromEntries_eq_ok_iff S.cover

variable {given given' : Option SettingTree}

/-- A section is given as a table, or not at all. -/
def IsTable (given : Option SettingTree) : Prop := ∀ u, given = some u → u.isBranch = true

/-- What is given in a section under the name of a setting. -/
def inside (given : Option SettingTree) (name : String) : Option SettingTree :=
  given.bind fun u => u.inside.lookup name

/-- A section has the settings that are given in it, unless it is given as a list. -/
theorem takes_inside (hlist : ∀ source items, given ≠ some (.leaf source (.list items)))
    (h : S.setting.Takes given {} s) :
    ∀ x ∈ S.settings, x.Takes (inside given x.name) (S.get {}) (S.get s) := by
  cases given with
  | none => exact takes_none_iff.mp h
  | some u =>
    cases u with
    | branch source entries => exact takes_branch_iff.mp h
    | leaf source w =>
      cases w with
      | list items => exact absurd rfl (hlist source items)
      | _ => cases h

/-- What is in a section, if it is given as a table, is all that counts. -/
theorem takes_of_inside (hgiven : IsTable given)
    (h : ∀ x ∈ S.settings, x.Takes (inside given x.name) (S.get {}) (S.get s)) :
    S.setting.Takes given {} s := by
  cases given with
  | none => exact takes_none_iff.mpr h
  | some u =>
    cases u with
    | branch source entries => exact takes_branch_iff.mpr h
    | leaf => cases hgiven _ rfl

/-- A section that is given as a table without settings is as good as none. -/
theorem step_eq_ok (hgiven : IsTable given) (hnone : ∀ x ∈ S.settings, inside given x.name = none)
    (h : S.get s = S.get {}) : S.setting.step given s = .ok s := by
  cases given with
  | none => rfl
  | some u =>
    cases u with
    | leaf => cases hgiven _ rfl
    | branch source entries =>
      have hdefaults : Field.fromEntries entries (S.settings.map Setting.field) (S.get {}) =
          .ok (S.get {}) := by
        refine (Setting.fromEntries_eq_ok_iff S.cover).mpr fun x hx => ?_
        have hlookup : entries.lookup x.name = none := hnone x hx
        rw [hlookup]
        rfl
      exact S.setting.within_set_eq_ok_iff.mpr
        ⟨S.get {}, hdefaults, (S.put_get s).symm.trans (congrArg (S.put · s) h)⟩

/-- What else is in a section, if it is given as a table, makes no difference. -/
theorem step_congr (hgiven : IsTable given) (hgiven' : IsTable given')
    (hinside : ∀ x ∈ S.settings, inside given x.name = inside given' x.name)
    (h : S.get s = S.get {}) : S.setting.step given s = S.setting.step given' s := by
  cases given with
  | none => exact (step_eq_ok hgiven' (fun x hx => (hinside x hx).symm) h).symm
  | some u =>
    cases given' with
    | none => exact step_eq_ok hgiven hinside h
    | some u' =>
      cases u with
      | leaf => cases hgiven _ rfl
      | branch source entries =>
        cases u' with
        | leaf => cases hgiven' _ rfl
        | branch source' entries' =>
          have hentries : Field.fromEntries entries (S.settings.map Setting.field) (S.get {}) =
              Field.fromEntries entries' (S.settings.map Setting.field) (S.get {}) :=
            Setting.fromEntries_congr (S.get {}) S.cover.apart
              (fun x hx r _ => congrArg (x.step · r) (hinside x hx)) fun _ _ => rfl
          exact congrArg (fun record => within S.name (record.map fun a => S.put a s)) hentries

end Section

/-- All settings are those that the sections of a configuration give. -/
theorem Settings.ofTree_eq_ok_iff {source : Source} {entries : Entries SettingTree} {s : Settings} :
    ofTree (.branch source entries) = .ok s ↔
      ∀ S ∈ sections, S.setting.Takes (entries.lookup S.name) {} s := by
  rw [ofTree, asRecord, fields_eq, Setting.fromEntries_eq_ok_iff cover_sections, List.forall_mem_map]
  rfl

/-- Two configurations that give sections as tables are the same, mismatches and all, if they give the
same for each setting. -/
theorem Settings.ofTree_congr {source source' : Source} {entries entries' : Entries SettingTree}
    (htable : ∀ S ∈ sections, Section.IsTable (entries.lookup S.name))
    (htable' : ∀ S ∈ sections, Section.IsTable (entries'.lookup S.name))
    (hinside : ∀ S ∈ sections, ∀ x ∈ S.settings,
      Section.inside (entries.lookup S.name) x.name = Section.inside (entries'.lookup S.name) x.name) :
    ofTree (.branch source entries) = ofTree (.branch source' entries') := by
  rw [ofTree, ofTree, asRecord, asRecord, fields_eq]
  refine Setting.fromEntries_congr {} cover_sections.apart ?_ fun _ _ => rfl
  exact List.forall_mem_map.mpr fun S hS _ h =>
    Section.step_congr (htable S hS) (htable' S hS) (hinside S hS) h

end AppScaffold
