import AppScaffold.Config.Tree
import AppScaffold.Proofs.Toml.TableNames

/-!
# Layers over layers

Where a layer has a table with distinct names in it, it is laid over an earlier one name by name. So what
two layers have under the name of a section and that of a setting is what they have there, one over the
other.
-/

namespace AppScaffold.SettingTree

/-- What is in a table; there is nothing in anything else. -/
def inside : SettingTree → Entries SettingTree
  | leaf .. => []
  | branch _ entries => entries

/-- It is a table. -/
def isBranch : SettingTree → Bool
  | leaf .. => false
  | branch .. => true

/-- What is found under two names, one inside the other. -/
def under (t : SettingTree) (outer inner : String) : Option SettingTree :=
  (t.inside.lookup outer).bind fun u => u.inside.lookup inner

/-- What is found in two layers, the later one over the earlier one. -/
def overlay (earlier later : Option SettingTree) : Option SettingTree :=
  later.elim earlier fun t => some (earlier.elim t fun e => merge e t)

variable {t u earlier later : SettingTree} {name outer inner : String} {source : Source}
  {found : Option SettingTree} {before after : Entries SettingTree}

/-- Nothing changes what is below it. -/
@[simp] theorem overlay_none_right : overlay found none = found := rfl

/-- What is over nothing is as it is. -/
@[simp] theorem overlay_none_left : overlay none found = found := by cases found <;> rfl

/-- A leaf takes the place of whatever was there. -/
theorem merge_leaf {v : ConfigValue} : merge earlier (.leaf source v) = .leaf source v := by
  cases earlier <;> rw [merge]
  all_goals exact fun _ _ _ _ _ h => by cases h

/-- A table takes the place of what is no table. -/
theorem merge_leaf_left {v : ConfigValue} : merge (.leaf source v) later = later := by
  rw [merge]
  exact fun _ _ _ _ h => by cases h

/-- It is a table exactly if the later one is. -/
theorem isBranch_merge : (merge earlier later).isBranch = later.isBranch := by
  cases earlier with
  | leaf => rw [merge_leaf_left]
  | branch =>
    cases later with
    | leaf => rw [merge_leaf]
    | branch => rw [merge]; rfl

/-- A table over whatever was there is a table. -/
theorem exists_overlay_of_isBranch (h : t.isBranch = true) :
    ∃ u, overlay found (some t) = some u ∧ u.isBranch = true := by
  cases found with
  | none => exact ⟨t, rfl, h⟩
  | some e => exact ⟨_, rfl, isBranch_merge.trans h⟩

/-- A value that is no table takes the place of whatever was there. -/
theorem overlay_of_not_isBranch (h : t.isBranch = false) : overlay found (some t) = some t := by
  cases t with
  | leaf source v =>
    cases found with
    | none => rfl
    | some e => exact congrArg some merge_leaf
  | branch => cases h

/-- The names of two layers in one are distinct if those of the earlier one are. -/
theorem nodup_mergeEntries (h : before.names.Nodup) : (mergeEntries before after).names.Nodup := by
  induction after generalizing before with
  | nil => rwa [mergeEntries]
  | cons entry after ih =>
    rw [mergeEntries]
    exact ih (Entries.nodup_names_put h)

/-- Under each name there is what two layers have there, one over the other. -/
theorem lookup_mergeEntries (h : after.names.Nodup) :
    (mergeEntries before after).lookup name = overlay (before.lookup name) (after.lookup name) := by
  induction after generalizing before with
  | nil => rw [mergeEntries]; rfl
  | cons entry after ih =>
    obtain ⟨n, t⟩ := entry
    obtain ⟨hn, hafter⟩ := List.nodup_cons.mp h
    rw [mergeEntries, ih hafter, Entries.lookup_put]
    by_cases hname : name = n
    · subst hname
      have hnone : after.lookup name = none := by
        rw [Option.eq_none_iff_forall_ne_some]
        exact fun u hu => hn (List.mem_map.mpr ⟨_, Entries.mem_of_lookup hu, rfl⟩)
      rw [if_pos rfl, hnone, List.lookup_cons_self]
      cases before.lookup name <;> rfl
    · rw [if_neg hname, List.lookup_cons, beq_false_of_ne hname]

/-- A tree with a table under a name, or nothing, and names that are distinct as far as that. -/
structure Opens (t : SettingTree) (name : String) : Prop where
  /-- The tree is a table. -/
  isBranch : t.isBranch = true
  /-- Its names are distinct. -/
  names : t.inside.names.Nodup
  /-- Under the name there is a table with distinct names. -/
  table : ∀ u, t.inside.lookup name = some u → u.isBranch = true ∧ u.inside.names.Nodup

/-- What is in two layers in one. -/
theorem inside_merge (hearlier : earlier.isBranch = true) (hlater : later.isBranch = true) :
    (merge earlier later).inside = mergeEntries earlier.inside later.inside := by
  cases earlier with
  | leaf => cases hearlier
  | branch =>
    cases later with
    | leaf => cases hlater
    | branch => rw [merge]; rfl

/-- Under the name of a section there is what two layers have there, one over the other. -/
theorem lookup_inside_merge (hearlier : earlier.isBranch = true) (hlater : later.Opens outer) :
    (merge earlier later).inside.lookup outer =
      overlay (earlier.inside.lookup outer) (later.inside.lookup outer) := by
  rw [inside_merge hearlier hlater.isBranch, lookup_mergeEntries hlater.names]

/-- Under the name of a section and that of a setting there is what two layers have there, one over the
other, whatever stands in the place of the section in the earlier one. -/
theorem under_merge (hearlier : earlier.isBranch = true) (hlater : later.Opens outer) :
    (merge earlier later).under outer inner =
      overlay (earlier.under outer inner) (later.under outer inner) := by
  unfold under
  rw [lookup_inside_merge hearlier hlater]
  cases hl : later.inside.lookup outer with
  | none => rfl
  | some l =>
    obtain ⟨hbranch, hnames⟩ := hlater.table l hl
    cases earlier.inside.lookup outer with
    | none =>
      rw [overlay_none_left, Option.bind_none, overlay_none_left]
    | some e =>
      cases e with
      | leaf source v =>
        change (merge (.leaf source v) l).inside.lookup inner = overlay none (l.inside.lookup inner)
        rw [merge_leaf_left, overlay_none_left]
      | branch source entries =>
        change (merge (.branch source entries) l).inside.lookup inner =
          overlay (entries.lookup inner) (l.inside.lookup inner)
        rw [inside_merge rfl hbranch, lookup_mergeEntries hnames]
        rfl

/-- Names stay distinct when a layer is laid over another one. -/
theorem Opens.merge (hearlier : earlier.Opens outer) (hlater : later.Opens outer) :
    (merge earlier later).Opens outer where
  isBranch := isBranch_merge.trans hlater.isBranch
  names := by
    rw [inside_merge hearlier.isBranch hlater.isBranch]
    exact nodup_mergeEntries hearlier.names
  table u hu := by
    rw [lookup_inside_merge hearlier.isBranch hlater] at hu
    cases hl : later.inside.lookup outer with
    | none =>
      rw [hl] at hu
      exact hearlier.table u hu
    | some l =>
      obtain ⟨hbranch, hnames⟩ := hlater.table l hl
      rw [hl] at hu
      cases he : earlier.inside.lookup outer with
      | none =>
        rw [he] at hu
        obtain rfl := Option.some.inj hu
        exact ⟨hbranch, hnames⟩
      | some e =>
        rw [he] at hu
        obtain rfl := Option.some.inj hu
        refine ⟨isBranch_merge.trans hbranch, ?_⟩
        change (SettingTree.merge e l).inside.names.Nodup
        rw [inside_merge (hearlier.table e he).1 hbranch]
        exact nodup_mergeEntries (hearlier.table e he).2

/-- Nothing is found in an empty table. -/
theorem opens_nil : (SettingTree.branch source []).Opens name :=
  ⟨rfl, List.nodup_nil, fun _ h => by cases h⟩

section Values

variable {entries : Entries ConfigValue}

/-- Named values keep their names. -/
theorem names_ofEntries : (ofEntries source entries).names = entries.names := by
  induction entries with
  | nil => rw [ofEntries]; rfl
  | cons entry entries ih =>
    obtain ⟨n, v⟩ := entry
    unfold Entries.names at ih ⊢
    rw [ofEntries, List.map_cons, ih, List.map_cons]

/-- Under each name there is the value that has it. -/
theorem lookup_ofEntries :
    (ofEntries source entries).lookup name = (entries.lookup name).map (ofValue source) := by
  induction entries with
  | nil => rw [ofEntries]; rfl
  | cons entry entries ih =>
    obtain ⟨n, v⟩ := entry
    rw [ofEntries, List.lookup_cons, List.lookup_cons, ih]
    cases name == n <;> rfl

/-- What is in a table of values. -/
theorem inside_ofValue_table : (ofValue source (.table entries)).inside = ofEntries source entries := by
  rw [ofValue]
  rfl

/-- A value that is a leaf is the value of the leaf. -/
theorem eq_of_ofValue_eq_leaf {source' : Source} {v w : ConfigValue}
    (h : ofValue source w = .leaf source' v) : w = v := by
  cases w with
  | table entries =>
    rw [ofValue] at h
    cases h
  | _ =>
    rw [ofValue] at h
    · cases h
      rfl
    all_goals exact fun _ h => by cases h

end Values

end AppScaffold.SettingTree
