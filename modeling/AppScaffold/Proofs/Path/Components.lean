import AppScaffold.Address
import AppScaffold.Path.Module
import AppScaffold.Project
import AppScaffold.Text.Blank
import Mathlib.Data.List.Basic
import Mathlib.Tactic.Common

/-!
# Components of ordinary paths

A path of a layout is ordinary if it is a way down from the root of a project through names that a
script can quote. The operations on paths are described here by what they do to the components:
joining adds components at the end, the parent drops the last one, and a last name is exchanged or
cut.
-/

namespace AppScaffold

/-- The character separates, quotes, escapes or is blank, so that no ordinary name holds it. -/
def isReserved (c : Char) : Bool := c == '/' || Address.isQuoteOrBackslash c || Text.isBlank c

/-- The segment names an entry of a directory. -/
def IsSegment (s : String) : Prop := Component.ofSegment s = some (.name s)

instance (s : String) : Decidable (IsSegment s) :=
  inferInstanceAs (Decidable (Component.ofSegment s = some (.name s)))

/-- A segment names an entry unless it is empty or made of one or two dots. -/
theorem isSegment_iff {s : String} : IsSegment s ↔ s ≠ "" ∧ s ≠ "." ∧ s ≠ ".." := by
  unfold IsSegment Component.ofSegment
  split_ifs with hidle hup
  · simp only [Bool.or_eq_true, decide_eq_true_eq] at hidle
    simp only [false_iff]
    tauto
  · simp [hup]
  · simp only [Bool.or_eq_true, decide_eq_true_eq, not_or] at hidle
    simp [hidle, hup]

namespace Path

/-- The components as they are written. -/
def names (p : Path) : List String := p.components.map Component.text

/-- A path that goes down from where it begins, through names. -/
structure IsDownward (p : Path) : Prop where
  /-- There is no root, no leading dot and no way up. -/
  components : p.components = p.names.map .name
  /-- The names are those of entries, so that no slash is in them. -/
  slash : ∀ s ∈ p.names, '/' ∉ s.toList

/-- A path that goes down from where it begins, through names without reserved characters. -/
structure IsOrdinary (p : Path) : Prop where
  /-- There is no root, no leading dot and no way up. -/
  components : p.components = p.names.map .name
  /-- The names can be quoted. -/
  plain : ∀ s ∈ p.names, ∀ c ∈ s.toList, isReserved c = false

variable {p q : Path} {s : String}

/-- An ordinary path goes down. -/
theorem IsOrdinary.isDownward (h : p.IsOrdinary) : p.IsDownward where
  components := h.components
  slash t ht hslash := absurd (h.plain t ht _ hslash) (by decide)

/-- Idle segments mean nothing. -/
theorem ofSegment_eq_none_iff : Component.ofSegment s = none ↔ idle s = true := by
  unfold Component.ofSegment idle
  split_ifs with hidle hup
  · simpa using hidle
  · simp [hup]
  · simpa using hidle

/-- Taking away idle segments at the front leaves the meaning. -/
theorem filterMap_dropWhile_idle (segments : List String) :
    (segments.dropWhile idle).filterMap Component.ofSegment =
      segments.filterMap Component.ofSegment := by
  induction segments with
  | nil => rfl
  | cons s segments ih =>
    by_cases hs : idle s = true
    · rw [List.dropWhile_cons_of_pos hs, ih, List.filterMap_cons_none (ofSegment_eq_none_iff.mpr hs)]
    · rw [List.dropWhile_cons_of_neg hs]

/-- What is left of a path when the idle segments at its end are taken away. -/
theorem filterMap_eq_of_dropWhile {segments before : List String}
    (h : segments.reverse.dropWhile idle = s :: before) :
    segments.filterMap Component.ofSegment =
      before.reverse.filterMap Component.ofSegment ++ (Component.ofSegment s).toList := by
  have hfilter := filterMap_dropWhile_idle segments.reverse
  rw [h, List.filterMap_reverse] at hfilter
  rw [← List.reverse_reverse (segments.filterMap _), ← hfilter, List.filterMap_reverse]
  cases hs : Component.ofSegment s with
  | none => simp [List.filterMap_cons_none hs]
  | some c => simp [List.filterMap_cons_some hs]

/-- The segment at which the idle end of a path begins is not idle. -/
theorem idle_of_dropWhile {segments before : List String}
    (h : segments.dropWhile idle = s :: before) : idle s = false := by
  have hhead := List.head?_dropWhile_not idle segments
  rw [h] at hhead
  simpa using hhead

/-- If all segments are idle, the path means what its first segment means. -/
theorem filterMap_eq_nil_of_dropWhile {segments : List String}
    (h : segments.reverse.dropWhile idle = []) : segments.filterMap Component.ofSegment = [] := by
  have hfilter := filterMap_dropWhile_idle segments.reverse
  rw [h, List.filterMap_reverse] at hfilter
  simpa using hfilter.symm

/-- The first segment of a path that begins with a name. -/
theorem lead_eq (h : IsSegment p.first) : p.lead = [.name p.first] := by
  obtain ⟨hempty, hdot, hup⟩ := isSegment_iff.mp h
  rw [lead, if_neg hempty, if_neg hdot, if_neg hup]

/-- Joining adds the components of a path that begins with a name. -/
theorem components_join (p : Path) (hq : IsSegment q.first) :
    (p.join q).components = p.components ++ q.components := by
  have hne := (isSegment_iff.mp hq).1
  have habsolute : q.isAbsolute = false := by simp [isAbsolute, hne]
  have hqcomponents : q.components = (q.first :: q.rest).filterMap Component.ofSegment := by
    rw [components, lead_eq hq, List.filterMap_cons_some hq]
    rfl
  rw [join, habsolute, Bool.false_or, hqcomponents]
  by_cases hp : p = empty
  · rw [if_pos (by simpa using hp), hqcomponents, hp]
    rfl
  rw [if_neg (by simpa using hp)]
  have hlead : ∀ segments : List String, segments ≠ [] → (p.first = "" → p.rest ≠ []) →
      (⟨p.first, segments⟩ : Path).lead = p.lead := by
    intro segments hsegments hrest
    unfold lead
    split_ifs with hfirst hnil hnil'
    · simp_all
    · simp_all
    · simp_all
    · rfl
    · rfl
    · rfl
    · rfl
  have hrest : p.first = "" → p.rest ≠ [] := by
    intro hfirst hnil
    exact hp (by cases p; simp_all [empty])
  split_ifs with hlast
  · obtain ⟨before, hbefore⟩ := List.getLast?_eq_some_iff.mp hlast
    rw [components, components, hlead _ (by simp) hrest, List.filterMap_append, hbefore,
      List.dropLast_concat, List.filterMap_append,
      List.filterMap_cons_none (ofSegment_eq_none_iff.mpr (by decide : idle "" = true)),
      List.filterMap_nil, List.append_nil, List.append_assoc]
  · rw [components, components, hlead _ (by simp) hrest, List.filterMap_append, List.append_assoc]

/-- A path that goes down and names something begins with a name. -/
theorem IsDownward.isSegment_first (h : p.IsDownward) (hne : p.components ≠ []) :
    IsSegment p.first := by
  have hmem : ∀ c ∈ p.components, ∃ s, c = .name s := by
    intro c hc
    rw [h.components] at hc
    obtain ⟨s, -, rfl⟩ := List.mem_map.mp hc
    exact ⟨s, rfl⟩
  have hlead : ∀ c, p.lead = [c] → ∃ s, c = .name s := fun c hc =>
    hmem c (by simp [Path.components, hc])
  rw [isSegment_iff]
  refine ⟨fun hfirst => ?_, fun hfirst => ?_, fun hfirst => ?_⟩
  · cases hrest : p.rest with
    | nil => exact hne (by simp [Path.components, lead, hfirst, hrest])
    | cons s segments =>
      obtain ⟨s, hs⟩ := hlead .root (by simp [lead, hfirst, hrest])
      cases hs
  · obtain ⟨s, hs⟩ := hlead .here (by simp [lead, hfirst])
    cases hs
  · obtain ⟨s, hs⟩ := hlead .up (by simp [lead, hfirst])
    cases hs

/-- The components of a path are its first segment and what the later ones mean. -/
theorem components_of_isSegment (h : IsSegment p.first) :
    p.components = .name p.first :: p.rest.filterMap Component.ofSegment := by
  rw [components, lead_eq h]
  rfl

/-- A segment alone is its own only component. -/
theorem components_of_segment (hs : IsSegment s) : (⟨s, []⟩ : Path).components = [.name s] :=
  components_of_isSegment (p := ⟨s, []⟩) hs

/-- A path without components is the empty one. -/
theorem eq_empty_of_components (hnil : p.components = []) : p = empty := by
  obtain ⟨first, rest⟩ := p
  have hlead := (List.append_eq_nil_iff.mp hnil).1
  unfold lead at hlead
  split_ifs at hlead with hfirst hrest
  · obtain rfl : first = "" := hfirst
    obtain rfl : rest = [] := List.isEmpty_iff.mp hrest
    rfl

/-- What is joined to a path that goes down begins with a name. -/
theorem IsDownward.isSegment_first_join (h : p.IsDownward) (hq : IsSegment q.first) :
    IsSegment (p.join q).first := by
  have habsolute : q.isAbsolute = false := by simp [isAbsolute, (isSegment_iff.mp hq).1]
  unfold join
  rw [habsolute, Bool.false_or]
  by_cases hnil : p.components = []
  · rw [if_pos (by simpa using eq_empty_of_components hnil)]
    exact hq
  · have hfirst := h.isSegment_first hnil
    split_ifs
    · exact hq
    · exact hfirst
    · exact hfirst

/-- The names of a path that goes down are segments. -/
theorem IsDownward.isSegment (h : p.IsDownward) (hs : s ∈ p.names) : IsSegment s := by
  have hmem : Component.name s ∈ p.components := by
    rw [h.components]
    exact List.mem_map_of_mem hs
  have hfirst := h.isSegment_first (List.ne_nil_of_mem hmem)
  rw [components_of_isSegment hfirst] at hmem
  rcases List.mem_cons.mp hmem with heq | hmem
  · rwa [Component.name.inj heq]
  · obtain ⟨segment, -, hsegment⟩ := List.mem_filterMap.mp hmem
    have heq := hsegment
    unfold Component.ofSegment at heq
    split_ifs at heq with hidle hup
    · cases heq
    · obtain rfl := Component.name.inj (Option.some.inj heq)
      exact hsegment

/-- A path that goes down and names something has a last name. -/
theorem IsDownward.exists_fileName (h : p.IsDownward) (hne : p.components ≠ []) :
    ∃ s, p.fileName = some s ∧ p.names = p.names.dropLast ++ [s] := by
  have hnames : p.names ≠ [] := fun hnil => hne (List.map_eq_nil_iff.mp hnil)
  refine ⟨p.names.getLast hnames, ?_, (List.dropLast_append_getLast hnames).symm⟩
  have hlast : p.components.getLast? = some (.name (p.names.getLast hnames)) := by
    rw [h.components, List.getLast?_map, List.getLast?_eq_some_getLast hnames]
    rfl
  rw [fileName, hlast]

/-- A path with a file name has components. -/
theorem components_ne_nil_of_fileName (h : p.fileName = some s) : p.components ≠ [] := by
  intro hnil
  rw [fileName, hnil] at h
  cases h

/-- The file name of a path that goes down is the last of its names. -/
theorem IsDownward.isSegment_fileName (h : p.IsDownward) (hs : p.fileName = some s) :
    s ∈ p.names ∧ IsSegment s := by
  obtain ⟨t, ht, hnames⟩ := h.exists_fileName (components_ne_nil_of_fileName hs)
  obtain rfl := Option.some.inj (hs.symm.trans ht)
  have hmem : s ∈ p.names := by
    rw [hnames]
    exact List.mem_append_right _ List.mem_cons_self
  exact ⟨hmem, h.isSegment hmem⟩

/-- The names of a path whose components are names. -/
theorem names_of_components {names : List String} (h : p.components = names.map .name) :
    p.names = names := by
  rw [Path.names, h, List.map_map]
  exact List.map_id names

/-- A path goes down if its components are names without slashes. -/
theorem IsDownward.of_names {names : List String} (h : p.components = names.map .name)
    (hslash : ∀ s ∈ names, '/' ∉ s.toList) : p.IsDownward ∧ p.names = names := by
  have hnames := names_of_components h
  exact ⟨⟨by rw [hnames, h], by rwa [hnames]⟩, hnames⟩

/-- A path is ordinary if its components are names without reserved characters. -/
theorem IsOrdinary.of_names {names : List String} (h : p.components = names.map .name)
    (hplain : ∀ s ∈ names, ∀ c ∈ s.toList, isReserved c = false) :
    p.IsOrdinary ∧ p.names = names := by
  have hnames := names_of_components h
  exact ⟨⟨by rw [hnames, h], by rwa [hnames]⟩, hnames⟩

/-- A path is the part before its idle end; its last component is what the segment there means. -/
theorem components_split (hfirst : IsSegment p.first) :
    (p.rest.reverse.dropWhile idle = [] ∧ p.components = [.name p.first]) ∨
    ∃ s before, p.rest.reverse.dropWhile idle = s :: before ∧ ∃ c, Component.ofSegment s = some c ∧
      p.components = .name p.first :: before.reverse.filterMap Component.ofSegment ++ [c] := by
  rw [components_of_isSegment hfirst]
  cases h : p.rest.reverse.dropWhile idle with
  | nil => exact .inl ⟨rfl, by rw [filterMap_eq_nil_of_dropWhile h]⟩
  | cons s before =>
    refine .inr ⟨s, before, rfl, ?_⟩
    cases hs : Component.ofSegment s with
    | none =>
      have hidle := idle_of_dropWhile h
      rw [ofSegment_eq_none_iff.mp hs] at hidle
      cases hidle
    | some c => exact ⟨c, rfl, by rw [filterMap_eq_of_dropWhile h, hs]; rfl⟩

/-- The parent drops the last component. -/
theorem exists_parent (hfirst : IsSegment p.first) :
    ∃ dir, p.parent = some dir ∧ dir.components = p.components.dropLast := by
  have hempty := (isSegment_iff.mp hfirst).1
  rcases components_split hfirst with ⟨hidle, hcomponents⟩ | ⟨s, before, hidle, c, -, hcomponents⟩
  · refine ⟨empty, ?_, ?_⟩
    · rw [parent, hidle]
      exact if_neg hempty
    · rw [hcomponents]
      rfl
  · refine ⟨ofReversed p.first before, by rw [parent, hidle], ?_⟩
    have hreversed : ofReversed p.first before = ⟨p.first, (before.dropWhile idle).reverse⟩ := by
      unfold ofReversed
      split
      · contradiction
      · rfl
    rw [hreversed, hcomponents, List.dropLast_concat,
      components_of_isSegment (p := ⟨p.first, (before.dropWhile idle).reverse⟩) hfirst,
      List.filterMap_reverse, filterMap_dropWhile_idle, List.filterMap_reverse]

/-- Exchanging the last name exchanges the last component. -/
theorem IsDownward.components_withFileName (h : p.IsDownward) (hne : p.components ≠ [])
    (hs : IsSegment s) (hslash : '/' ∉ s.toList) :
    (p.withFileName s).components = p.components.dropLast ++ [.name s] := by
  obtain ⟨name, hname, -⟩ := h.exists_fileName hne
  obtain ⟨dir, hdir, hcomponents⟩ := exists_parent (h.isSegment_first hne)
  rw [withFileName, hname, hdir]
  dsimp only
  rw [ofText_of_notMem hslash, components_join dir hs, hcomponents, components_of_segment hs]

/-- A segment means nothing, a way up, or its own name. -/
theorem eq_of_mem_ofSegment {c : Component} (h : c ∈ (Component.ofSegment s).toList) :
    c = .up ∨ c = .name s := by
  unfold Component.ofSegment at h
  split_ifs at h
  · cases h
  · exact .inl (List.mem_singleton.mp h)
  · exact .inr (List.mem_singleton.mp h)

/-- Steps are components other than leading dots. -/
theorem IsDownward.steps_eq (h : p.IsDownward) : p.steps = p.components := by
  rw [steps, List.filter_eq_self, h.components]
  intro c hc
  obtain ⟨s, -, rfl⟩ := List.mem_map.mp hc
  rfl

/-- All components of an ordinary path are steps. -/
theorem IsOrdinary.steps_eq (h : p.IsOrdinary) : p.steps = p.components := h.isDownward.steps_eq

end Path

end AppScaffold
