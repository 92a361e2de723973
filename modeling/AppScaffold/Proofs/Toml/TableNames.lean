import AppScaffold.Toml.Document
import Mathlib.Data.List.Nodup
import Mathlib.Tactic.Common

/-!
# Names in configuration files

A key is given a value only once. So whatever is read from a file, no table has a name twice, and none
of the tables in it has.
-/

namespace AppScaffold

namespace Entries

variable {α β : Type}

/-- The names of the entries. -/
def names (entries : Entries α) : List String := entries.map Prod.fst

/-- An entry is put in the place of the one with its name, or at the end. -/
theorem names_put (name : String) (a : α) (entries : Entries α) :
    (entries.put name a).names =
      if name ∈ entries.names then entries.names else entries.names ++ [name] := by
  induction entries with
  | nil => rfl
  | cons entry entries ih =>
    obtain ⟨n, b⟩ := entry
    unfold names at ih ⊢
    unfold put
    split_ifs with hn hmem hmem
    · rfl
    · exact absurd (hn ▸ List.mem_cons_self) hmem
    · rw [List.map_cons, ih, if_pos ((List.mem_cons.mp hmem).resolve_left (Ne.symm hn)), List.map_cons]
    · rw [List.map_cons, ih, if_neg fun h => hmem (List.mem_cons_of_mem _ h), List.map_cons,
        List.cons_append]

/-- Names stay distinct when an entry is put. -/
theorem nodup_names_put {name : String} {a : α} {entries : Entries α} (h : entries.names.Nodup) :
    (entries.put name a).names.Nodup := by
  rw [names_put]
  split_ifs with hmem
  · exact h
  · exact List.nodup_append.mpr ⟨h, List.nodup_singleton name,
      fun n hn m hm => (List.mem_singleton.mp hm) ▸ ne_of_mem_of_not_mem hn hmem⟩

/-- An entry is the one that is put, or it was there before. -/
theorem mem_of_mem_put {name : String} {a : α} {entries : Entries α} {entry : String × α}
    (h : entry ∈ entries.put name a) : entry = (name, a) ∨ entry ∈ entries := by
  induction entries with
  | nil => exact .inl (List.mem_singleton.mp h)
  | cons first entries ih =>
    obtain ⟨n, b⟩ := first
    unfold put at h
    split_ifs at h with hn
    · subst hn
      exact (List.mem_cons.mp h).imp_right (List.mem_cons_of_mem _)
    · rcases List.mem_cons.mp h with rfl | h
      · exact .inr List.mem_cons_self
      · exact (ih h).imp_right (List.mem_cons_of_mem _)

/-- What is found under a name is an entry. -/
theorem mem_of_lookup {name : String} {a : α} {entries : Entries α}
    (h : entries.lookup name = some a) : (name, a) ∈ entries := by
  obtain ⟨front, back, rfl, -⟩ := List.lookup_eq_some_iff.mp h
  exact List.mem_append_right front List.mem_cons_self

end Entries

/-- No table has a name twice, and none of the tables in it has. -/
inductive ConfigValue.Distinct : ConfigValue → Prop where
  /-- A table with distinct names. -/
  | table {entries : List (String × ConfigValue)} (names : (Entries.names entries).Nodup)
      (inside : ∀ e ∈ entries, e.2.Distinct) : Distinct (.table entries)
  /-- A value that is no table. -/
  | plain {v : ConfigValue} (h : ∀ entries, v ≠ .table entries) : Distinct v

namespace ConfigValue.Distinct

variable {entries : Entries ConfigValue} {name : String} {v : ConfigValue}

/-- The names of a table are distinct. -/
theorem nodup_names (h : (ConfigValue.table entries).Distinct) : entries.names.Nodup := by
  cases h with
  | table names _ => exact names
  | plain h => exact absurd rfl (h entries)

/-- The tables in a table have distinct names. -/
theorem of_mem (h : (ConfigValue.table entries).Distinct) {e : String × ConfigValue} (he : e ∈ entries) :
    e.2.Distinct := by
  cases h with
  | table _ inside => exact inside e he
  | plain h => exact absurd rfl (h entries)

/-- Names stay distinct when a value is put. -/
theorem put (h : (ConfigValue.table entries).Distinct) (hv : v.Distinct) :
    (ConfigValue.table (entries.put name v)).Distinct := by
  refine .table (Entries.nodup_names_put h.nodup_names) fun e he => ?_
  rcases Entries.mem_of_mem_put he with rfl | he
  · exact hv
  · exact h.of_mem he

end ConfigValue.Distinct

namespace Text.Scanner

variable {α β : Type} {P : α → Prop} {Q : β → Prop}

/-- Whatever a scanner takes has a property. -/
def Yields (s : Text.Scanner α) (P : α → Prop) : Prop := ∀ cs a rest, s cs = some (a, rest) → P a

/-- A value that is taken from nothing. -/
theorem Yields.pure {a : α} (h : P a) : Yields (Pure.pure a) P := by
  intro cs b rest heq
  obtain ⟨rfl, -⟩ := Prod.mk.inj (Option.some.inj heq)
  exact h

/-- What is malformed yields nothing. -/
theorem Yields.malformed : Yields malformed P := fun _ _ _ h => by cases h

/-- One scanner after another. -/
theorem Yields.bind {s : Text.Scanner α} {f : α → Text.Scanner β} (hs : s.Yields P)
    (hf : ∀ a, P a → (f a).Yields Q) : Yields (s >>= f) Q := by
  intro cs b rest h
  obtain ⟨⟨a, cs'⟩, hscan, h⟩ := Option.bind_eq_some_iff.mp h
  exact hf a (hs cs a cs' hscan) cs' b rest h

/-- One scanner after another, whatever the first one takes. -/
theorem Yields.then {s : Text.Scanner α} {f : α → Text.Scanner β} (hf : ∀ a, (f a).Yields Q) :
    Yields (s >>= f) Q := Yields.bind (P := fun _ => True) (fun _ _ _ _ => trivial) fun a _ => hf a

end Text.Scanner

namespace Toml

open Text.Scanner

namespace Item

variable {entries out inner : Entries Item} {name last : String} {path : List String}
  {v : ConfigValue} {i : Item}

/-- The value of an item that is put. -/
theorem values_put : values (entries.put name i) = (values entries).put name i.toValue := by
  induction entries with
  | nil => rfl
  | cons entry entries ih =>
    obtain ⟨n, j⟩ := entry
    rw [Entries.put, values, Entries.put]
    split_ifs with hn
    · rfl
    · rw [values, ih]

/-- The value of an item that is found. -/
theorem mem_values (h : entries.lookup name = some i) : (name, i.toValue) ∈ values entries := by
  have hmem := Entries.mem_of_lookup h
  clear h
  induction entries with
  | nil => cases hmem
  | cons entry entries ih =>
    obtain ⟨n, j⟩ := entry
    rw [values]
    rcases List.mem_cons.mp hmem with heq | hmem
    · obtain ⟨rfl, rfl⟩ := Prod.mk.inj heq
      exact List.mem_cons_self
    · exact List.mem_cons_of_mem _ (ih hmem)

/-- The names of a table, and those of the tables in it, are distinct. -/
def Distinct (entries : Entries Item) : Prop := (ConfigValue.table (values entries)).Distinct

/-- Names stay distinct when an item is put. -/
theorem Distinct.put (h : Distinct entries) (hi : i.toValue.Distinct) : Distinct (entries.put name i) := by
  rw [Distinct, values_put]
  exact ConfigValue.Distinct.put h hi

/-- A table in a table has distinct names. -/
theorem Distinct.table {origin : Origin} (h : Distinct entries)
    (hlookup : entries.lookup name = some (.table origin inner)) : Distinct inner :=
  ConfigValue.Distinct.of_mem h (mem_values hlookup)

/-- A list of tables is no table. -/
theorem distinct_tables (earlier : List ConfigValue) : (toValue (.tables earlier inner)).Distinct :=
  .plain fun _ h => by cases h

/-- There are no names in nothing. -/
theorem distinct_nil : Distinct [] :=
  ConfigValue.Distinct.table List.nodup_nil (List.forall_mem_nil _)

/-- Names stay distinct when a key with points is given a value. -/
theorem Distinct.insert (h : Distinct entries) (hv : v.Distinct)
    (hinsert : insert path last v entries = some out) : Distinct out := by
  induction path generalizing entries out with
  | nil =>
    unfold Item.insert at hinsert
    split at hinsert
    · rw [← Option.some.inj hinsert]
      exact h.put hv
    · cases hinsert
  | cons name path ih =>
    unfold Item.insert at hinsert
    split at hinsert
    · obtain ⟨inner, hinner, rfl⟩ := Option.map_eq_some_iff.mp hinsert
      exact h.put (ih distinct_nil hinner)
    · cases hinsert
    · cases hinsert
    · next hlookup =>
      split_ifs at hinsert
      obtain ⟨inner, hinner, rfl⟩ := Option.map_eq_some_iff.mp hinsert
      exact h.put (ih (h.table hlookup) hinner)
    · next hlookup =>
      obtain ⟨inner, hinner, rfl⟩ := Option.map_eq_some_iff.mp hinsert
      exact h.put (ih (h.table hlookup) hinner)
    · split_ifs at hinsert
      obtain ⟨inner, -, rfl⟩ := Option.map_eq_some_iff.mp hinsert
      exact h.put (distinct_tables _)

/-- Names stay distinct when a table inside is changed so that its names stay distinct. -/
theorem Distinct.descend {change : Entries Item → Option (Entries Item)} (h : Distinct entries)
    (hchange : ∀ {before after}, Distinct before → change before = some after → Distinct after)
    (hdescend : descend change path entries = some out) : Distinct out := by
  induction path generalizing entries out with
  | nil => exact hchange h hdescend
  | cons name path ih =>
    unfold Item.descend at hdescend
    split at hdescend
    · obtain ⟨inner, hinner, rfl⟩ := Option.map_eq_some_iff.mp hdescend
      exact h.put (ih distinct_nil hinner)
    · cases hdescend
    · next hlookup =>
      obtain ⟨inner, hinner, rfl⟩ := Option.map_eq_some_iff.mp hdescend
      exact h.put (ih (h.table hlookup) hinner)
    · obtain ⟨inner, -, rfl⟩ := Option.map_eq_some_iff.mp hdescend
      exact h.put (distinct_tables _)

/-- Names stay distinct when a table is opened. -/
theorem Distinct.openTable (h : Distinct entries) (hopen : openTable name entries = some out) :
    Distinct out := by
  unfold Item.openTable at hopen
  split at hopen
  · rw [← Option.some.inj hopen]
    exact h.put distinct_nil
  · next hlookup =>
    rw [← Option.some.inj hopen]
    exact h.put (h.table hlookup)
  · cases hopen

/-- Names stay distinct when a list of tables gets one more. -/
theorem Distinct.openElement (h : Distinct entries) (hopen : openElement name entries = some out) :
    Distinct out := by
  unfold Item.openElement at hopen
  split at hopen
  · rw [← Option.some.inj hopen]
    exact h.put (distinct_tables _)
  · rw [← Option.some.inj hopen]
    exact h.put (distinct_tables _)
  · cases hopen

end Item

section Words

variable {cs : List Char} {v : ConfigValue}

/-- A whole number is no table. -/
theorem distinct_integer (h : integer cs = some v) : v.Distinct := by
  have hlimits : ∀ {n : Int}, integer? n = some v → v.Distinct := by
    intro n hn
    unfold integer? at hn
    split_ifs at hn
    rw [← Option.some.inj hn]
    exact .plain fun _ h => by cases h
  unfold integer at h
  split at h
  all_goals
    obtain ⟨digits, -, hn⟩ := Option.bind_eq_some_iff.mp h
    exact hlimits hn

/-- A floating-point number is no table. -/
theorem distinct_float (h : float cs = some v) : v.Distinct := by
  have hfloat : ∀ x, (ConfigValue.float x).Distinct := fun x => .plain fun _ h => by cases h
  have hlimits : ∀ {p : DecimalParts}, float? p = some v → v.Distinct := by
    intro p hp
    unfold float? at hp
    split_ifs at hp
    rw [← Option.some.inj hp]
    exact hfloat _
  unfold float at h
  simp only at h
  split_ifs at h
  · rw [← Option.some.inj h]
    exact hfloat _
  · rw [← Option.some.inj h]
    exact hfloat _
  all_goals
    obtain ⟨exponent, -, h⟩ := Option.bind_eq_some_iff.mp h
    obtain ⟨whole, -, h⟩ := Option.bind_eq_some_iff.mp h
    split at h
    · first | exact hlimits h | cases h
    · obtain ⟨fraction, -, h⟩ := Option.bind_eq_some_iff.mp h
      exact hlimits h

/-- The value that a word writes has distinct names; a date is an empty table. -/
theorem distinct_number (h : number cs = some v) : v.Distinct := by
  unfold number at h
  split_ifs at h
  · rw [← Option.some.inj h]
    exact Item.distinct_nil
  · split at h
    · next hinteger => exact distinct_integer (hinteger.trans h)
    · exact distinct_float h

end Words

/-- A text or a word has distinct names. -/
theorem yields_scalar : Yields scalar ConfigValue.Distinct := by
  have htext : ∀ quote, Yields (do return ConfigValue.text (← text quote)) ConfigValue.Distinct :=
    fun quote => .then fun s => .pure (.plain fun _ h => by cases h)
  have hword : Yields word ConfigValue.Distinct := by
    unfold word
    refine .then fun cs => ?_
    split_ifs
    · exact .pure (.plain fun _ h => by cases h)
    · exact .pure (.plain fun _ h => by cases h)
    · split
      · next v hv => exact .then fun _ => .pure (distinct_number hv)
      · exact .malformed
  unfold scalar
  refine .then fun c => ?_
  split
  · exact htext _
  · exact htext _
  · exact hword

/-- The entries of a table on one line have distinct names if its values have. -/
theorem yields_members {item : Text.Scanner ConfigValue} (hitem : item.Yields ConfigValue.Distinct)
    (fuel : Nat) {entries : Entries Item} (h : Item.Distinct entries) :
    Yields (members item fuel entries) Item.Distinct := by
  induction fuel generalizing entries with
  | zero => exact .malformed
  | succ fuel ih =>
    unfold members
    refine .then fun path => .then fun _ => .then fun _ => .bind hitem fun v hv => .then fun _ => ?_
    split
    · exact .malformed
    · next inserted hinsert =>
      have hinserted := h.insert hv hinsert
      refine .then fun comma => ?_
      split_ifs
      · exact ih hinserted
      · exact .then fun _ => .pure hinserted

/-- A value has distinct names. -/
theorem yields_value (fuel depth : Nat) : Yields (value fuel depth) ConfigValue.Distinct := by
  induction depth with
  | zero => exact yields_scalar
  | succ depth ih =>
    unfold value
    refine .then fun bracket => ?_
    split_ifs
    · exact .then fun items => .pure (.plain fun _ h => by cases h)
    · refine .then fun brace => ?_
      split_ifs
      · refine .then fun _ => .then fun close => ?_
        split_ifs
        · exact .pure Item.distinct_nil
        · exact .bind (yields_members ih fuel Item.distinct_nil) fun entries h => .pure h
      · exact yields_scalar

/-- What a statement adds to a document has distinct names. -/
def Statement.Distinct : Statement → Prop
  | .assign _ _ v => v.Distinct
  | _ => True

/-- What a statement adds has distinct names. -/
theorem yields_statement (fuel : Nat) : Yields (statement fuel) Statement.Distinct := by
  unfold statement
  refine .then fun double => ?_
  split_ifs
  · exact .then fun path => .then fun _ => .then fun _ => .pure trivial
  · refine .then fun bracket => ?_
    split_ifs
    · exact .then fun path => .then fun _ => .then fun _ => .pure trivial
    · exact .then fun path => .then fun _ => .then fun _ =>
        .bind (yields_value _ _) fun v hv => .then fun _ => .pure hv

/-- A statement leaves the names of a document distinct. -/
theorem Document.distinct_add {d out : Document} {s : Statement} (h : Item.Distinct d.entries)
    (hs : s.Distinct) (hadd : d.add s = some out) : Item.Distinct out.entries := by
  cases s with
  | openTable path last =>
    obtain ⟨entries, hentries, rfl⟩ := Option.map_eq_some_iff.mp hadd
    exact h.descend (fun hbefore => hbefore.openTable) hentries
  | openElement path last =>
    obtain ⟨entries, hentries, rfl⟩ := Option.map_eq_some_iff.mp hadd
    exact h.descend (fun hbefore => hbefore.openElement) hentries
  | assign path last v =>
    obtain ⟨entries, hentries, rfl⟩ := Option.map_eq_some_iff.mp hadd
    exact h.descend (fun hbefore => hbefore.insert hs) hentries

/-- The statements of a file, one after the other, leave the names of a document distinct. -/
theorem yields_statements (fuel : Nat) {d : Document} (h : Item.Distinct d.entries) :
    Yields (statements fuel d) fun d => Item.Distinct d.entries := by
  induction fuel generalizing d with
  | zero => exact .malformed
  | succ fuel ih =>
    intro cs out rest hrun
    unfold statements at hrun
    obtain ⟨⟨_, cs'⟩, -, hrun⟩ := Option.bind_eq_some_iff.mp hrun
    dsimp only at hrun
    split_ifs at hrun
    · obtain ⟨rfl, -⟩ := Prod.mk.inj (Option.some.inj hrun)
      exact h
    · obtain ⟨⟨s, cs''⟩, hstatement, hrun⟩ := Option.bind_eq_some_iff.mp hrun
      obtain ⟨d', hadd, hrun⟩ := Option.bind_eq_some_iff.mp hrun
      have hs := yields_statement _ _ _ _ hstatement
      exact ih (Document.distinct_add h hs hadd) _ _ _ hrun

/-- No table of a file has a name twice. -/
theorem distinct_of_ofText {text : String} {entries : Entries ConfigValue}
    (h : ofText text = some entries) : (ConfigValue.table entries).Distinct := by
  obtain ⟨⟨d, rest⟩, hrun, rfl⟩ := Option.map_eq_some_iff.mp h
  exact yields_statements _ Item.distinct_nil _ _ _ hrun

end Toml

end AppScaffold
