import AppScaffold.Config.Load
import AppScaffold.Proofs.Config.Sections
import AppScaffold.Proofs.Config.Variables
import AppScaffold.Proofs.Disk.Walking

/-!
# Loading settings

Whatever else is set, each setting is what the variable gives that names it, or else what the file gives
for it, or else the default. This holds as long as the file gives no section as a list: a list gives the
settings by their places, and a variable that names anything in the section takes all of them away.
-/

namespace AppScaffold

open SettingTree Environment

/-- The value under two names, one inside the other. -/
def ConfigValue.under (entries : Entries ConfigValue) (outer inner : String) : Option ConfigValue :=
  match entries.lookup outer with
  | some (.table inside) => inside.lookup inner
  | _ => none

/-- A configuration file with its entries, if there is one. -/
abbrev Configuration := Option (Path × Entries ConfigValue)

/-- The value that a configuration file has under two names. -/
def Configuration.under (config : Configuration) (outer inner : String) : Option ConfigValue :=
  config.bind fun c => ConfigValue.under c.2 outer inner

/-- The configuration file that counts in a directory. -/
def Volume.configuration (v : Volume) (dir : Path) : Configuration :=
  if v.exists? (dir.join configFileName) then
    (v.findFile (dir.join configFileName)).bind fun file =>
      ((v.readText file).toOption.bind Toml.ofText).map fun entries => (file, entries)
  else none

/-- No table of a configuration file has a name twice. -/
def Configuration.Distinct (config : Configuration) : Prop :=
  ∀ c, config = some c → (ConfigValue.table c.2).Distinct

/-- No table of a configuration file that is read has a name twice. -/
theorem Volume.distinct_configuration (v : Volume) (dir : Path) : (v.configuration dir).Distinct := by
  intro c h
  unfold configuration at h
  split_ifs at h
  obtain ⟨file, -, h⟩ := Option.bind_eq_some_iff.mp h
  obtain ⟨entries, hentries, rfl⟩ := Option.map_eq_some_iff.mp h
  obtain ⟨text, -, htext⟩ := Option.bind_eq_some_iff.mp hentries
  exact Toml.distinct_of_ofText htext

namespace Settings

/-- What a file gives for a setting. -/
def inFile (config : Configuration) (outer inner : String) : Option SettingTree :=
  config.bind fun c => (ConfigValue.under c.2 outer inner).map (.ofValue (.file c.1))

/-- What is found for a setting: what the last variable gives that names it, or else what the file
gives. -/
def found (env : Variables) (config : Configuration) (outer inner : String) : Option SettingTree :=
  ((values env [outer, inner]).getLast?.map given).or (inFile config outer inner)

/-- The layer of a configuration file, over nothing. -/
def layer (config : Configuration) : SettingTree :=
  config.elim (.branch .environment []) fun c =>
    merge (.branch .environment []) (.ofValue (.file c.1) (.table c.2))

/-- The layers of a file and of the variables in one. -/
def merged (config : Configuration) (env : Variables) : SettingTree := merge (layer config) (tree env)

variable {v : Volume} {env : Variables} {dir : Path} {outer inner : String} {s : Settings}
  {config : Configuration}

/-- Loading fails because of the file, or the settings are those of the file with those of the variables
over them. -/
theorem load_cases (v : Volume) (env : Variables) (dir : Path) :
    (v.configuration dir = none ∧ ∃ file, load v env dir = .error (.malformed file)) ∨
    load v env dir = match ofTree (merged (v.configuration dir) env) with
      | .ok s => .ok s
      | .error m => .error (.mismatch m) := by
  unfold load Volume.configuration loadFrom Volume.fileLayer
  dsimp only
  split_ifs with hexists
  · cases hfile : v.findFile (dir.join configFileName) with
    | none => exact .inr rfl
    | some file =>
      cases hread : (v.readText file).toOption.bind Toml.ofText with
      | none =>
        simp only [Option.bind_some, hread]
        exact .inl ⟨rfl, file, rfl⟩
      | some entries =>
        simp only [Option.bind_some, hread, Option.map_some]
        exact .inr rfl
  · exact .inr rfl

/-- Settings that are loaded are those of the file with those of the variables over them. -/
theorem load_eq_ok_iff : load v env dir = .ok s ↔
    (∀ file, load v env dir ≠ .error (.malformed file)) ∧
      ofTree (merged (v.configuration dir) env) = .ok s := by
  rcases load_cases v env dir with ⟨-, file, hload⟩ | hload
  · rw [hload]
    exact ⟨fun h => (by cases h), fun h => absurd rfl (h.1 file)⟩
  · rw [hload]
    cases ofTree (merged (v.configuration dir) env) with
    | ok s' => simp
    | error m => simp

/-- A file that is read is not malformed. -/
theorem load_ne_malformed {c : Path × Entries ConfigValue} (hc : v.configuration dir = some c)
    (file : Path) : load v env dir ≠ .error (.malformed file) := by
  rcases load_cases v env dir with ⟨hnone, -⟩ | hload
  · rw [hnone] at hc
    cases hc
  · rw [hload]
    cases ofTree (merged (v.configuration dir) env) <;> rintro ⟨⟩

/-- Two configurations load as the same, mismatches and all, if they are the same and so are the files
that are malformed. -/
theorem load_congr {v' : Volume} {env' : Variables} {dir' : Path}
    (hmalformed : ∀ file, load v' env' dir' = .error (.malformed file) ↔
      load v env dir = .error (.malformed file))
    (h : ofTree (merged (v'.configuration dir') env') = ofTree (merged (v.configuration dir) env)) :
    load v' env' dir' = load v env dir := by
  rcases load_cases v' env' dir' with ⟨-, file, hload'⟩ | hload'
  · rw [hload', (hmalformed file).mp hload']
  · rcases load_cases v env dir with ⟨-, file, hload⟩ | hload
    · rw [hload, (hmalformed file).mpr hload]
    · rw [hload, hload', h]

section Layers

/-- The layer of a file is a table. -/
theorem isBranch_layer : (layer config).isBranch = true := by
  cases config with
  | none => rfl
  | some c => exact isBranch_merge.trans (by rw [ofValue]; rfl)

/-- A file has what it has under the name of a section, whatever that is. -/
theorem lookup_layer (hconfig : config.Distinct) :
    (layer config).inside.lookup outer =
      config.bind fun c => (c.2.lookup outer).map (ofValue (.file c.1)) := by
  cases config with
  | none => rfl
  | some c =>
    have hnames := (hconfig c rfl).nodup_names
    change (merge _ _).inside.lookup outer = (c.2.lookup outer).map (ofValue (.file c.1))
    rw [inside_merge rfl (by rw [ofValue]; rfl), inside_ofValue_table, lookup_mergeEntries,
      lookup_ofEntries]
    · exact overlay_none_left
    · rwa [names_ofEntries]

/-- A file has what it has under the name of a section and that of a setting. -/
theorem under_layer (hconfig : config.Distinct) :
    (layer config).under outer inner = inFile config outer inner := by
  unfold SettingTree.under inFile
  rw [lookup_layer hconfig]
  cases config with
  | none => rfl
  | some c =>
    rw [Option.bind_some, Option.bind_some, ConfigValue.under]
    cases c.2.lookup outer with
    | none => rfl
    | some w =>
      cases w with
      | table entries =>
        rw [Option.map_some, Option.bind_some, inside_ofValue_table, lookup_ofEntries]
      | _ =>
        rw [Option.map_some, Option.bind_some, ofValue]
        · rfl
        all_goals exact fun _ h => by cases h

end Layers

/-- All settings are those that the sections of a table give. -/
theorem ofTree_eq_ok_iff_of_isBranch {t : SettingTree} (h : t.isBranch = true) :
    ofTree t = .ok s ↔ ∀ S ∈ sections, S.setting.Takes (t.inside.lookup S.name) {} s := by
  cases t with
  | leaf => cases h
  | branch source entries => exact ofTree_eq_ok_iff

/-- Two tables that give sections as tables are the same, mismatches and all, if they give the same for
each setting. -/
theorem ofTree_congr_of_isBranch {t t' : SettingTree} (h : t.isBranch = true) (h' : t'.isBranch = true)
    (htable : ∀ S ∈ sections, Section.IsTable (t.inside.lookup S.name))
    (htable' : ∀ S ∈ sections, Section.IsTable (t'.inside.lookup S.name))
    (hunder : ∀ S ∈ sections, ∀ x ∈ S.settings, t.under S.name x.name = t'.under S.name x.name) :
    ofTree t = ofTree t' := by
  cases t with
  | leaf => cases h
  | branch source entries =>
    cases t' with
    | leaf => cases h'
    | branch source' entries' => exact ofTree_congr htable htable' hunder

/-- No variable names a whole section. -/
def SparesSections (env : Variables) : Prop := ∀ S ∈ sections, ∀ e ∈ env, keys e.1 ≠ some [S.name]

/-- The file gives no section as a list. -/
def ListsNoSection (config : Configuration) : Prop :=
  ∀ c, config = some c → ∀ S ∈ sections, ∀ items, c.2.lookup S.name ≠ some (.list items)

/-- Sections are given as tables only, and settings neither twice nor as tables of more settings. -/
structure IsTidy (env : Variables) (config : Configuration) : Prop where
  /-- No variable names a whole section. -/
  spares : SparesSections env
  /-- At most one variable names each setting. -/
  single : ∀ S ∈ sections, ∀ x ∈ S.settings, (values env [S.name, x.name]).length ≤ 1
  /-- No variable names anything inside a setting. -/
  outside : ∀ S ∈ sections, ∀ x ∈ S.settings, ¬NamesInside env S.name x.name
  /-- The file gives sections as tables. -/
  tables : ∀ c, config = some c → ∀ S ∈ sections, ∀ w, c.2.lookup S.name = some w →
    ∃ entries, w = .table entries

/-- Where all is tidy, all is tidy with a variable less. -/
theorem IsTidy.tail {e : String × String} (h : IsTidy (e :: env) config) : IsTidy env config where
  spares S hS e' he' := h.spares S hS e' (List.mem_cons_of_mem _ he')
  single S hS x hx :=
    Nat.le_trans ((List.sublist_cons_self e env).filterMap _).length_le (h.single S hS x hx)
  outside S hS x hx hinside :=
    h.outside S hS x hx (hinside.imp fun _ => And.imp_left (List.mem_cons_of_mem _))
  tables := h.tables

/-- In an absolute directory it makes no difference whether there is a file. -/
theorem load_eq_loadFrom (h : dir.isAbsolute = true) :
    load v env dir = loadFrom v env (dir.join configFileName) := by
  unfold load
  dsimp only
  split_ifs with hexists
  · rfl
  · have hfile : v.isFile (dir.join configFileName) = false := by
      unfold Volume.exists? at hexists
      unfold Volume.isFile
      split
      · next hfind =>
        rw [hfind] at hexists
        exact absurd rfl hexists
      · rfl
    have habsolute : (dir.join configFileName).isAbsolute = true :=
      (Path.isAbsolute_join (by decide)).trans h
    unfold loadFrom Volume.fileLayer Volume.findFile
    rw [if_pos habsolute, hfile]
    rfl

section Merged

variable {S : Section}

/-- The layers in one are a table. -/
theorem isBranch_merged : (merged config env).isBranch = true := isBranch_merge.trans isBranch_tree

/-- A section that is given is a table, or what the file has under its name. -/
theorem merged_cases (hS : S ∈ sections) (hspares : SparesSections env)
    (hconfig : config.Distinct) {u : SettingTree}
    (hu : (merged config env).inside.lookup S.name = some u) : u.isBranch = true ∨
      ∃ c w, config = some c ∧ c.2.lookup S.name = some w ∧ u = .ofValue (.file c.1) w := by
  have hopens := (opens_tree_and_give S.name (hspares S hS)).1
  rw [merged, lookup_inside_merge isBranch_layer hopens] at hu
  cases htree : (tree env).inside.lookup S.name with
  | some l =>
    obtain ⟨w, hw, hbranch⟩ := exists_overlay_of_isBranch (hopens.table l htree).1
    rw [htree, hw] at hu
    exact .inl (Option.some.inj hu ▸ hbranch)
  | none =>
    rw [htree, overlay_none_right, lookup_layer hconfig] at hu
    obtain ⟨c, hc, hu⟩ := Option.bind_eq_some_iff.mp hu
    obtain ⟨w, hw, hfile⟩ := Option.map_eq_some_iff.mp hu
    exact .inr ⟨c, w, hc, hw, hfile.symm⟩

/-- For a setting there is what variables give over what the file gives. -/
theorem exists_under_merged (inner : String) (hS : S ∈ sections) (hspares : SparesSections env)
    (hconfig : config.Distinct) : ∃ g, Give env S.name inner g ∧
      (merged config env).under S.name inner = overlay (inFile config S.name inner) g := by
  obtain ⟨hopens, hgive⟩ := opens_tree_and_give inner (hspares S hS)
  exact ⟨_, hgive, by rw [merged, under_merge isBranch_layer hopens, under_layer hconfig]⟩

/-- Where all is tidy, what is given for a setting is what the variable gives that names it, over what
the file gives. -/
theorem under_merged (htidy : IsTidy env config) (hS : S ∈ sections)
    (hconfig : config.Distinct) {x : Setting S.ρ} (hx : x ∈ S.settings) :
    (merged config env).under S.name x.name =
      overlay (inFile config S.name x.name) ((values env [S.name, x.name]).getLast?.map given) := by
  obtain ⟨g, hgive, hunder⟩ := exists_under_merged x.name hS htidy.spares hconfig
  rcases hgive with rfl | ⟨-, hinside | hmany⟩
  · exact hunder
  · exact absurd hinside (htidy.outside S hS x hx)
  · exact absurd hmany (Nat.not_le_of_lt (Nat.lt_succ_of_le (htidy.single S hS x hx)))

/-- Where all is tidy, sections are given as tables. -/
theorem isTable_merged (htidy : IsTidy env config) (hS : S ∈ sections) (hconfig : config.Distinct) :
    Section.IsTable ((merged config env).inside.lookup S.name) := by
  intro u hu
  rcases merged_cases hS htidy.spares hconfig hu with hbranch | ⟨c, w, hc, hw, rfl⟩
  · exact hbranch
  · obtain ⟨entries, rfl⟩ := htidy.tables c hc S hS w hw
    rw [ofValue]
    rfl

variable {σ : Type} {x : Setting σ} {defaults r : σ} {g : Option SettingTree}

/-- A plain setting is not taken from a table. -/
theorem isBranch_of_takes (hplain : SettingTree.IsPlain x.take) {u : SettingTree}
    (h : x.Takes (some u) defaults r) : u.isBranch = false := by
  cases u with
  | leaf => rfl
  | branch source entries => exact absurd h (hplain.refuses source entries _)

/-- A plain setting that is taken is what is found for it. -/
theorem takes_found (hplain : SettingTree.IsPlain x.take) (hgive : Give env outer inner g)
    (h : x.Takes (overlay (inFile config outer inner) g) defaults r) :
    x.Takes (found env config outer inner) defaults r := by
  have hrefused : ∀ u, g = some u → u.isBranch = true → False := by
    rintro u rfl hbranch
    obtain ⟨w, hw, hwbranch⟩ : ∃ w, overlay (inFile config outer inner) (some u) = some w ∧
        w.isBranch = true := exists_overlay_of_isBranch hbranch
    rw [hw] at h
    rw [isBranch_of_takes hplain h] at hwbranch
    cases hwbranch
  rcases hgive with rfl | ⟨⟨u, rfl, hbranch⟩, -⟩
  · unfold found
    cases hlast : (values env [outer, inner]).getLast? with
    | none =>
      rw [hlast] at h
      exact h
    | some raw =>
      have hleaf : (given raw).isBranch = false :=
        Bool.eq_false_iff.mpr (hrefused _ (congrArg (Option.map given) hlast))
      rwa [hlast, Option.map_some, overlay_of_not_isBranch hleaf] at h
  · exact absurd hbranch (hrefused u rfl)

/-- A plain setting is taken as what is found for it. -/
theorem takes_overlay (hplain : SettingTree.IsPlain x.take)
    (h : x.Takes (found env config outer inner) defaults r) :
    x.Takes (overlay (inFile config outer inner) ((values env [outer, inner]).getLast?.map given))
      defaults r := by
  unfold found at h
  cases hlast : (values env [outer, inner]).getLast? with
  | none =>
    rw [hlast] at h
    exact h
  | some raw =>
    rw [hlast] at h
    have hleaf := isBranch_of_takes hplain h
    rwa [Option.map_some, overlay_of_not_isBranch hleaf]

/-- A file gives nothing for a setting, or the value that it has under its names. -/
theorem inFile_cases (config : Configuration) (outer inner : String) :
    config.under outer inner = none ∧ inFile config outer inner = none ∨
    ∃ file w, config.under outer inner = some w ∧
      inFile config outer inner = some (.ofValue (.file file) w) := by
  cases config with
  | none => exact .inl ⟨rfl, rfl⟩
  | some c =>
    cases hw : ConfigValue.under c.2 outer inner with
    | none => exact .inl ⟨hw, congrArg (Option.map _) hw⟩
    | some w => exact .inr ⟨c.1, w, hw, congrArg (Option.map _) hw⟩

/-- It makes no difference to a plain setting where it is found. -/
theorem takes_found_of_same {env' : Variables} {config' : Configuration}
    (hplain : SettingTree.IsPlain x.take)
    (henv : values env' [outer, inner] = values env [outer, inner])
    (hconfig : config'.under outer inner = config.under outer inner)
    (h : x.Takes (found env config outer inner) defaults r) :
    x.Takes (found env' config' outer inner) defaults r := by
  unfold found at h ⊢
  rw [henv]
  cases hlast : (values env [outer, inner]).getLast? with
  | some raw =>
    rw [hlast] at h
    exact h
  | none =>
    rw [hlast, Option.map_none, Option.none_or] at h
    rw [Option.map_none, Option.none_or]
    rcases inFile_cases config outer inner with ⟨hnone, hfile⟩ | ⟨file, w, hw, hfile⟩
    · rcases inFile_cases config' outer inner with ⟨-, hfile'⟩ | ⟨file', w', hw', -⟩
      · rw [hfile']
        rwa [hfile] at h
      · cases (hw'.symm.trans hconfig).trans hnone
    · rcases inFile_cases config' outer inner with ⟨hnone', -⟩ | ⟨file', w', hw', hfile'⟩
      · cases (hnone'.symm.trans hconfig).trans hw
      · obtain rfl := Option.some.inj ((hw'.symm.trans hconfig).trans hw)
        rw [hfile] at h
        rw [hfile']
        exact hplain.take_ofValue h _

/-- Where no variable names a whole section and the file gives none as a list, each setting is what is
found for it. -/
theorem takes_found_of_ofTree (hspares : SparesSections env) (hlists : ListsNoSection config)
    (hconfig : config.Distinct) (h : ofTree (merged config env) = .ok s) (hS : S ∈ sections)
    {x : Setting S.ρ} (hx : x ∈ S.settings) : x.Takes (found env config S.name x.name) (S.get {}) (S.get s) := by
  have hsection := (ofTree_eq_ok_iff_of_isBranch isBranch_merged).mp h S hS
  have hlist : ∀ source items, (merged config env).inside.lookup S.name ≠
      some (.leaf source (.list items)) := by
    intro source items hlookup
    rcases merged_cases hS hspares hconfig hlookup with hbranch | ⟨c, w, hc, hw, heq⟩
    · cases hbranch
    · exact hlists c hc S hS items (hw.trans (congrArg some (eq_of_ofValue_eq_leaf heq.symm)))
  have hinside : x.Takes ((merged config env).under S.name x.name) (S.get {}) (S.get s) :=
    Section.takes_inside hlist hsection x hx
  obtain ⟨g, hgive, hunder⟩ := exists_under_merged x.name hS hspares hconfig
  exact takes_found (S.plain x hx) hgive (hunder ▸ hinside)

/-- Where all is tidy, settings that are what is found for them are all settings. -/
theorem ofTree_of_takes_found (htidy : IsTidy env config) (hconfig : config.Distinct)
    (h : ∀ S ∈ sections, ∀ x ∈ S.settings,
      x.Takes (found env config S.name x.name) (S.get {}) (S.get s)) :
    ofTree (merged config env) = .ok s := by
  rw [ofTree_eq_ok_iff_of_isBranch isBranch_merged]
  intro S hS
  refine Section.takes_of_inside (isTable_merged htidy hS hconfig) fun x hx => ?_
  change x.Takes ((merged config env).under S.name x.name) _ _
  rw [under_merged htidy hS hconfig hx]
  exact takes_overlay (S.plain x hx) (h S hS x hx)

end Merged

/-- Settings that are loaded are those of the variables, or else those of the file, or else the defaults,
one by one, as long as no variable names a whole section and the file gives no section as a list. They
also load where all is tidy and the same nineteen settings are given, whatever else there is and wherever
the file is. Where all is tidy in both places and the same settings are given by the same file, what does
not load fails in the same way. In an absolute directory it makes no difference whether there is a file. -/
theorem load_settings (v : Volume) (env : Variables) (dir : Path) :
    (∀ s, SparesSections env → ListsNoSection (v.configuration dir) → load v env dir = .ok s →
      (∀ S ∈ sections, ∀ x ∈ S.settings,
        x.Takes (found env (v.configuration dir) S.name x.name) (S.get {}) (S.get s)) ∧
      ∀ v' env' dir', IsTidy env' (v'.configuration dir') →
        (∀ S ∈ sections, ∀ x ∈ S.settings,
          values env' [S.name, x.name] = values env [S.name, x.name] ∧
            (v'.configuration dir').under S.name x.name = (v.configuration dir).under S.name x.name) →
        (∀ file, load v' env' dir' ≠ .error (.malformed file)) → load v' env' dir' = .ok s) ∧
    (∀ v' env' dir', IsTidy env (v.configuration dir) → IsTidy env' (v'.configuration dir') →
      (∀ S ∈ sections, ∀ x ∈ S.settings,
        values env' [S.name, x.name] = values env [S.name, x.name] ∧
          inFile (v'.configuration dir') S.name x.name = inFile (v.configuration dir) S.name x.name) →
      (∀ file, load v' env' dir' = .error (.malformed file) ↔
        load v env dir = .error (.malformed file)) → load v' env' dir' = load v env dir) ∧
    (dir.isAbsolute = true → load v env dir = loadFrom v env (dir.join configFileName)) := by
  have hconfig := v.distinct_configuration dir
  refine ⟨fun s hspares hlists h => ?_, fun v' env' dir' htidy htidy' hsame hmalformed => ?_,
    load_eq_loadFrom⟩
  · have hfound : ∀ S ∈ sections, ∀ x ∈ S.settings,
        x.Takes (found env (v.configuration dir) S.name x.name) (S.get {}) (S.get s) :=
      fun S hS x hx => takes_found_of_ofTree hspares hlists hconfig (load_eq_ok_iff.mp h).2 hS hx
    refine ⟨hfound, fun v' env' dir' htidy hsame hread => load_eq_ok_iff.mpr ⟨hread, ?_⟩⟩
    refine ofTree_of_takes_found htidy (v'.distinct_configuration dir') fun S hS x hx => ?_
    obtain ⟨henv, hfile⟩ := hsame S hS x hx
    exact takes_found_of_same (S.plain x hx) henv hfile (hfound S hS x hx)
  · have hconfig' := v'.distinct_configuration dir'
    refine load_congr hmalformed (ofTree_congr_of_isBranch isBranch_merged isBranch_merged
      (fun S hS => isTable_merged htidy' hS hconfig') (fun S hS => isTable_merged htidy hS hconfig)
      fun S hS x hx => ?_)
    obtain ⟨henv, hfile⟩ := hsame S hS x hx
    rw [under_merged htidy' hS hconfig' hx, under_merged htidy hS hconfig hx, henv, hfile]

section Small

/-- A directory. -/
def appDir : Path := ⟨"", ["app"]⟩

/-- The configuration file in it. -/
def appFile : Path := ⟨"", ["app", "expo-scaffold.toml"]⟩

/-- A disk with the file. -/
def withFile (text : String) : Volume :=
  ⟨⟨[(["app"], .dir), (["app", "expo-scaffold.toml"], .file (.text text))]⟩, []⟩

/-- The file counts in the directory. -/
theorem configuration_withFile (text : String) : (withFile text).configuration appDir =
    (Toml.ofText text).map fun entries => (appFile, entries) := by
  have hadmissible : Disk.admissible ⟨"", ["app", "expo-scaffold.toml"]⟩ = .ok () := by decide
  have hfind : (withFile text).find? appFile = .ok (.file (.text text)) := by
    simp +decide [withFile, appFile, Volume.find?, Disk.locate, hadmissible, Disk.walk, Disk.steps,
      Disk.bareSteps, Disk.segmentStep, Disk.get?, List.lookup_cons]
  have hjoin : appDir.join configFileName = appFile := by decide
  have habsolute : appFile.isAbsolute = true := by decide
  have hexists : (withFile text).exists? appFile = true := by
    rw [Volume.exists?, hfind]
    rfl
  have hfile : (withFile text).findFile appFile = some appFile := by
    rw [Volume.findFile, if_pos habsolute, Volume.isFile, hfind]
    rfl
  have hread : (withFile text).readText appFile = .ok text := by rw [Volume.readText, hfind]
  rw [Volume.configuration, hjoin, if_pos hexists, hfile, Option.bind_some, hread]
  rfl

/-- What is loaded from the file. -/
theorem load_withFile {text : String} {env : Variables} {s : Settings}
    (h : ((Toml.ofText text).map fun entries => ofTree (merged (some (appFile, entries)) env)) =
      some (.ok s)) : load (withFile text) env appDir = .ok s := by
  obtain ⟨entries, hentries, htree⟩ := Option.map_eq_some_iff.mp h
  have hc : (withFile text).configuration appDir = some (appFile, entries) := by
    rw [configuration_withFile, hentries]
    rfl
  exact load_eq_ok_iff.mpr ⟨load_ne_malformed hc, by rw [hc, htree]⟩

/-- No setting is called `foo`. -/
theorem name_ne_foo {S : Section} (hS : S ∈ sections) {x : Setting S.ρ} (hx : x ∈ S.settings) :
    x.name ≠ "foo" := by
  have hall : ∀ S ∈ sections, "foo" ∉ S.settings.map Setting.name := by
    simp only [sections, List.forall_mem_cons, List.not_mem_nil, false_imp_iff, implies_true, and_true]
    and_intros
    all_goals decide
  exact fun heq => hall S hS (heq ▸ List.mem_map_of_mem hx)

/-- The layout is given as a list, whose first item is the directory of the screens. A variable for a
setting that there is not takes the list away. -/
theorem load_listed :
    ∃ s s', load (withFile "layout = ['app']\n") [] appDir = .ok s ∧
      load (withFile "layout = ['app']\n") [("EXPO_SCAFFOLD_LAYOUT__FOO", "1")] appDir = .ok s' ∧
      keys "EXPO_SCAFFOLD_LAYOUT__FOO" = some ["layout", "foo"] ∧
      (∀ S ∈ sections, ∀ x ∈ S.settings, x.name ≠ "foo") ∧
      s.layout.screensDir = ⟨"app", []⟩ ∧ s'.layout.screensDir = ⟨"src", ["Screens"]⟩ := by
  have hplain : load (withFile "layout = ['app']\n") [] appDir =
      .ok { layout := { screensDir := ⟨"app", []⟩ } } := load_withFile (by decide +kernel)
  have hfoo : load (withFile "layout = ['app']\n") [("EXPO_SCAFFOLD_LAYOUT__FOO", "1")] appDir =
      .ok {} := load_withFile (by decide +kernel)
  exact ⟨_, _, hplain, hfoo, by decide +kernel, fun S hS x hx => name_ne_foo hS hx, rfl, rfl⟩

/-- A file with one setting. -/
def smallText : String := "layout.screens_dir = 'app'\n"

/-- A variable for another setting. -/
def netVariable : String × String := ("EXPO_SCAFFOLD_LAYOUT__API_DIR", "net")

/-- A variable for a setting that there is not. -/
def fooVariable : String × String := ("EXPO_SCAFFOLD_LAYOUT__FOO", "1")

/-- What the file and the variable set. -/
def smallSettings : Settings := { layout := { screensDir := ⟨"app", []⟩, apiDir := ⟨"net", []⟩ } }

/-- The names of the variable. -/
theorem keys_netVariable : keys netVariable.1 = some ["layout", "api_dir"] := by decide +kernel

/-- The names of the variable for nothing. -/
theorem keys_fooVariable : keys fooVariable.1 = some ["layout", "foo"] := by decide +kernel

/-- A bare word is the text that it is. -/
theorem ofText_net : ConfigValue.ofText "net" = .text "net" := by
  have hvalue : ConfigValue.bareValue 4 ['n', 'e', 't'] = some (.text "net", []) := by
    rw [ConfigValue.bareValue]
    rfl
  have hsurrounded : ConfigValue.bareValue.surrounded 4 ['n', 'e', 't'] = some (.text "net", []) := by
    rw [ConfigValue.bareValue.surrounded]
    change ((ConfigValue.bareValue 4 ['n', 'e', 't']).bind _) = _
    rw [hvalue]
    rfl
  change (Text.Scanner.run (ConfigValue.bareValue.surrounded 4) ['n', 'e', 't']).getD _ = _
  unfold Text.Scanner.run
  rw [hsurrounded]
  rfl

/-- What the variable gives. -/
theorem tree_netVariable : tree [netVariable] =
    .branch .environment
      [("layout", .branch .environment [("api_dir", .leaf .environment (.text "net"))])] := by
  have hvariable : variableTree netVariable.1 netVariable.2 =
      some (nested (.leaf .environment (.text "net")) ["layout", "api_dir"]) := by
    rw [variableTree, keys_netVariable, netVariable, ofText_net, ofValue]
    · rfl
    · rintro _ ⟨⟩
  rw [← List.nil_append [netVariable], tree_concat, hvariable]
  rfl

/-- The file and the variable load. -/
theorem load_netVariable : load (withFile smallText) [netVariable] appDir = .ok smallSettings := by
  refine load_withFile ?_
  unfold merged
  rw [tree_netVariable]
  decide +kernel

/-- It is a table. -/
def isTable : ConfigValue → Bool
  | .table _ => true
  | _ => false

/-- The file is read, and has tables in it. -/
theorem exists_configuration_smallText : ∃ c, (withFile smallText).configuration appDir = some c ∧
    ∀ e ∈ c.2, ∃ entries, e.2 = .table entries := by
  have h : ((Toml.ofText smallText).any fun entries => entries.all fun e => isTable e.2) = true := by
    decide +kernel
  obtain ⟨entries, hentries, hall⟩ := (Option.any_eq_true _ _).mp h
  refine ⟨(appFile, entries), by rw [configuration_withFile, hentries]; rfl, fun e he => ?_⟩
  have he := List.all_eq_true.mp hall e he
  unfold isTable at he
  split at he
  · next inside heq => exact ⟨inside, heq⟩
  · cases he

/-- The variable for nothing has no setting's value. -/
theorem values_fooVariable {S : Section} (hS : S ∈ sections) {x : Setting S.ρ} (hx : x ∈ S.settings) :
    values [fooVariable, netVariable] [S.name, x.name] = values [netVariable] [S.name, x.name] := by
  have hne : keys fooVariable.1 ≠ some [S.name, x.name] := by
    rw [keys_fooVariable]
    intro heq
    exact name_ne_foo hS hx (by simpa using (congrArg List.getLast? (Option.some.inj heq)).symm)
  unfold values
  rw [List.filterMap_cons, if_neg hne]

/-- All is tidy with both variables. -/
theorem isTidy_small :
    IsTidy [fooVariable, netVariable] ((withFile smallText).configuration appDir) := by
  have hkeys : ∀ e ∈ [fooVariable, netVariable], ∃ outer inner, keys e.1 = some [outer, inner] :=
    List.forall_mem_cons.mpr ⟨⟨_, _, keys_fooVariable⟩,
      List.forall_mem_singleton.mpr ⟨_, _, keys_netVariable⟩⟩
  obtain ⟨c', hc', htables⟩ := exists_configuration_smallText
  constructor
  case spares =>
    intro S _ e he heq
    obtain ⟨outer, inner, hkey⟩ := hkeys e he
    cases hkey.symm.trans heq
  case single =>
    intro S hS x hx
    rw [values_fooVariable hS hx]
    exact List.length_filterMap_le _ _
  case outside =>
    rintro S - x - ⟨e, he, k, ks, heq⟩
    obtain ⟨outer, inner, hkey⟩ := hkeys e he
    cases hkey.symm.trans heq
  case tables =>
    intro c hc S _ w hw
    obtain rfl := Option.some.inj (hc'.symm.trans hc)
    exact htables _ (Entries.mem_of_lookup hw)

/-- One setting in a file, another one in a variable, and a variable for a setting that there is not. -/
theorem load_settings_small :
    SparesSections [netVariable] ∧ ListsNoSection ((withFile smallText).configuration appDir) ∧
      IsTidy [netVariable] ((withFile smallText).configuration appDir) ∧
      IsTidy [fooVariable, netVariable] ((withFile smallText).configuration appDir) ∧
      appDir.isAbsolute = true ∧
      load (withFile smallText) [netVariable] appDir = .ok smallSettings ∧
      load (withFile smallText) [fooVariable, netVariable] appDir = .ok smallSettings ∧
      load (withFile smallText) [fooVariable, netVariable] appDir =
        load (withFile smallText) [netVariable] appDir ∧
      load (withFile smallText) [netVariable] appDir =
        loadFrom (withFile smallText) [netVariable] (appDir.join configFileName) := by
  have htidy := isTidy_small.tail
  have hlists : ListsNoSection ((withFile smallText).configuration appDir) := by
    intro c hc S hS items hitems
    obtain ⟨entries, h⟩ := htidy.tables c hc S hS _ hitems
    cases h
  have habsolute : appDir.isAbsolute = true := by decide
  obtain ⟨c, hc, -⟩ := exists_configuration_smallText
  obtain ⟨hsettings, hresult, hfrom⟩ := load_settings (withFile smallText) [netVariable] appDir
  have hsame := (hsettings _ htidy.spares hlists load_netVariable).2 _ _ _ isTidy_small
    (fun S hS x hx => ⟨values_fooVariable hS hx, rfl⟩) (load_ne_malformed hc)
  exact ⟨htidy.spares, hlists, htidy, isTidy_small, habsolute, load_netVariable, hsame,
    hresult _ _ _ htidy isTidy_small (fun S hS x hx => ⟨values_fooVariable hS hx, rfl⟩) fun file =>
      iff_of_false (load_ne_malformed hc file) (load_ne_malformed hc file),
    hfrom habsolute⟩

end Small

end Settings

end AppScaffold
