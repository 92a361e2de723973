import AppScaffold.Config.Environment
import AppScaffold.Proofs.Config.Overlays
import Mathlib.Data.List.Induction

/-!
# Settings that variables give

Each variable sets one thing, below as many names as it has. What all variables give for a setting is what
the last one gives that names it; only if another one names something inside the setting, or several name
the setting itself, it may be a table.
-/

namespace AppScaffold.Environment

open SettingTree

variable {env : Variables} {name raw outer inner k : String} {ks : List String} {t : SettingTree}

/-- The values of the variables that have nested names, in order. -/
def values (env : Variables) (ks : List String) : List String :=
  env.filterMap fun e => if keys e.1 = some ks then some e.2 else none

/-- What a value gives. -/
def given (raw : String) : SettingTree := .ofValue .environment (.ofText raw)

/-- A variable names something inside a setting. -/
def NamesInside (env : Variables) (outer inner : String) : Prop :=
  ∃ e ∈ env, ∃ k ks, keys e.1 = some (outer :: inner :: k :: ks)

/-- A variable has at least one name. -/
theorem ne_nil_of_keys (h : keys name = some ks) : ks ≠ [] := by
  obtain ⟨cs, -, h⟩ := Option.bind_eq_some_iff.mp h
  dsimp only at h
  split_ifs at h
  rw [← Option.some.inj h]
  intro hnil
  have hlength := congrArg List.length hnil
  rw [Text.split, List.length_map, Text.length_splitChars] at hlength
  exact absurd hlength (Nat.succ_ne_zero _)

/-- Below names there is nothing but what is nested there. -/
theorem inside_nested : (nested t (k :: ks)).inside = [(k, nested t ks)] := rfl

/-- What is nested below names is found there. -/
theorem under_nested : (nested t (outer :: inner :: ks)).under outer inner = some (nested t ks) := by
  rw [under, inside_nested, List.lookup_cons_self, Option.bind_some, inside_nested, List.lookup_cons_self]

/-- What is nested below other names is not found there. -/
theorem under_nested_of_ne (hne : ks ≠ []) (hsection : ks ≠ [outer])
    (hks : ∀ rest, ks ≠ outer :: inner :: rest) : (nested t ks).under outer inner = none := by
  obtain ⟨k, rest, rfl⟩ := List.exists_cons_of_ne_nil hne
  rw [under, inside_nested, List.lookup_cons]
  by_cases hk : outer = k
  · subst hk
    obtain ⟨k', rest, rfl⟩ := List.exists_cons_of_ne_nil fun h => hsection (congrArg _ h)
    have hk' : inner ≠ k' := fun h => hks rest (h ▸ rfl)
    rw [beq_self_eq_true, Option.bind_some, inside_nested, List.lookup_cons, beq_false_of_ne hk']
    rfl
  · rw [beq_false_of_ne hk]
    rfl

/-- What is nested below names other than that of a section leaves the section a table. -/
theorem opens_nested (hne : ks ≠ []) (hsection : ks ≠ [outer]) : (nested t ks).Opens outer := by
  obtain ⟨k, rest, rfl⟩ := List.exists_cons_of_ne_nil hne
  refine ⟨rfl, List.nodup_singleton k, fun u hu => ?_⟩
  rw [inside_nested, List.lookup_cons] at hu
  by_cases hk : outer = k
  · subst hk
    obtain ⟨k', rest, rfl⟩ := List.exists_cons_of_ne_nil fun h => hsection (congrArg _ h)
    rw [beq_self_eq_true] at hu
    obtain rfl := Option.some.inj hu
    exact ⟨rfl, List.nodup_singleton k'⟩
  · rw [beq_false_of_ne hk] at hu
    cases hu

/-- What one more variable gives is laid over the rest. -/
theorem tree_concat (e : String × String) :
    tree (env ++ [e]) = (variableTree e.1 e.2).elim (tree env) (merge (tree env)) := by
  obtain ⟨name, value⟩ := e
  unfold tree
  rw [List.filterMap_append, List.foldl_append, List.filterMap_cons, List.filterMap_nil]
  dsimp only
  cases variableTree name value with
  | none => rw [List.foldl_nil, Option.elim_none]
  | some t => rw [List.foldl_cons, List.foldl_nil, Option.elim_some]

/-- What all variables give is a table. -/
theorem isBranch_tree : (tree env).isBranch = true := by
  induction env using List.reverseRecOn with
  | nil => rfl
  | append_singleton env e ih =>
    rw [tree_concat, variableTree]
    cases hkeys : keys e.1 with
    | none => exact ih
    | some ks =>
      obtain ⟨k, rest, rfl⟩ := List.exists_cons_of_ne_nil (ne_nil_of_keys hkeys)
      exact isBranch_merge

/-- The values of one more variable come last. -/
theorem values_concat (e : String × String) :
    values (env ++ [e]) ks = values env ks ++ if keys e.1 = some ks then [e.2] else [] := by
  unfold values
  rw [List.filterMap_append, List.filterMap_cons, List.filterMap_nil]
  split_ifs <;> rfl

/-- What variables give for a setting is what the last one gives that names it. Only if one names
something inside the setting, or several name the setting itself, it may be a table instead. -/
def Give (env : Variables) (outer inner : String) (found : Option SettingTree) : Prop :=
  found = (values env [outer, inner]).getLast?.map given ∨
    (∃ u, found = some u ∧ u.isBranch = true) ∧
      (NamesInside env outer inner ∨ 2 ≤ (values env [outer, inner]).length)

variable {e : String × String} {found : Option SettingTree}

/-- What is named inside a setting stays so with one more variable. -/
theorem NamesInside.concat (h : NamesInside env outer inner) : NamesInside (env ++ [e]) outer inner :=
  h.imp fun _ => And.imp_left (List.mem_append_left _)

/-- One more variable that has nothing to do with a setting. -/
theorem Give.concat_of_ne (h : Give env outer inner found) (hkeys : keys e.1 ≠ some [outer, inner]) :
    Give (env ++ [e]) outer inner found := by
  unfold Give
  rw [values_concat, if_neg hkeys, List.append_nil]
  exact h.imp_right (And.imp_right (Or.imp_left NamesInside.concat))

/-- One more variable that names a setting. -/
theorem Give.concat_self (h : Give env outer inner found) (hkeys : keys e.1 = some [outer, inner]) :
    Give (env ++ [e]) outer inner (overlay found (some (given e.2))) := by
  unfold Give
  rw [values_concat, if_pos hkeys, List.getLast?_concat, Option.map_some, List.length_append]
  cases hgiven : (given e.2).isBranch with
  | false => exact .inl (overlay_of_not_isBranch hgiven)
  | true =>
    rcases h with hfound | ⟨-, hmore⟩
    · cases hlast : (values env [outer, inner]).getLast? with
      | none =>
        rw [hfound, hlast]
        exact .inl rfl
      | some last =>
        -- Two variables name the setting.
        have hpos := List.length_pos_of_mem (List.mem_of_getLast? hlast)
        exact .inr ⟨exists_overlay_of_isBranch hgiven, .inr (Nat.succ_le_succ hpos)⟩
    · exact .inr ⟨exists_overlay_of_isBranch hgiven,
        hmore.imp NamesInside.concat fun h => Nat.le_add_right_of_le h⟩

/-- One more variable that names something inside a setting. -/
theorem give_concat_inside (hkeys : keys e.1 = some (outer :: inner :: k :: ks)) :
    Give (env ++ [e]) outer inner (overlay found (some (nested (given e.2) (k :: ks)))) :=
  .inr ⟨exists_overlay_of_isBranch rfl,
    .inl ⟨e, List.mem_append_right _ (List.mem_singleton_self e), k, ks, hkeys⟩⟩

/-- What one more variable gives is what it gives over the rest. -/
theorem Give.concat (h : Give env outer inner found) (hkeys : keys e.1 = some ks) (hne : ks ≠ [])
    (hsection : ks ≠ [outer]) :
    Give (env ++ [e]) outer inner (overlay found ((nested (given e.2) ks).under outer inner)) := by
  by_cases hreaches : ∃ rest, ks = outer :: inner :: rest
  · obtain ⟨rest, rfl⟩ := hreaches
    rw [under_nested]
    cases rest with
    | nil => exact h.concat_self hkeys
    | cons k rest => exact give_concat_inside hkeys
  · rw [under_nested_of_ne hne hsection fun rest h => hreaches ⟨rest, h⟩, overlay_none_right]
    exact h.concat_of_ne fun heq => hreaches ⟨[], Option.some.inj (hkeys.symm.trans heq)⟩

/-- Unless a variable names a whole section, all variables leave it a table, or nothing, and in it each
setting is what they give for it. -/
theorem opens_tree_and_give (inner : String) (hsection : ∀ e ∈ env, keys e.1 ≠ some [outer]) :
    (tree env).Opens outer ∧ Give env outer inner ((tree env).under outer inner) := by
  induction env using List.reverseRecOn with
  | nil => exact ⟨opens_nil, .inl rfl⟩
  | append_singleton env e ih =>
    obtain ⟨hopens, hgive⟩ := ih fun e' he' => hsection e' (List.mem_append_left _ he')
    have he := hsection e (List.mem_append_right _ (List.mem_singleton_self e))
    rw [tree_concat, variableTree]
    cases hkeys : keys e.1 with
    | none => exact ⟨hopens, hgive.concat_of_ne (by simp [hkeys])⟩
    | some ks =>
      have hne := ne_nil_of_keys hkeys
      have hks : ks ≠ [outer] := fun h => he (hkeys.trans (congrArg some h))
      have hlater : (nested (given e.2) ks).Opens outer := opens_nested hne hks
      change (merge (tree env) (nested (given e.2) ks)).Opens outer ∧
        Give _ _ _ ((merge (tree env) (nested (given e.2) ks)).under outer inner)
      rw [under_merge hopens.isBranch hlater]
      exact ⟨hopens.merge hlater, hgive.concat hkeys hne hks⟩

end AppScaffold.Environment
