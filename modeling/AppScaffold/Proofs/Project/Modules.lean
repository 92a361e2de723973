import AppScaffold.Generate
import AppScaffold.Proofs.Path.Lowercase
import AppScaffold.Proofs.Project.Artifacts
import AppScaffold.Proofs.Script.Specifiers

/-!
# Specifiers lead to artifacts

The places of artifacts and the specifiers by which other files name them are worked out apart from
each other. In a layout of ordinary paths they agree: the imports of the registries lead to the
files of the templates, those of the network functions to the base address, and those of the
navigation to the registries.
-/

namespace AppScaffold

/-- The paths of the layout are ordinary, its registries are files, and the extensions stay within
a name. -/
structure Settings.IsOrdinary (s : Settings) : Prop where
  /-- All paths are ordinary. -/
  paths : ∀ p ∈ [s.layout.screensDir, s.layout.componentsDir, s.layout.reduxDir, s.layout.apiDir,
    s.layout.navigationDir, s.layout.screenRegistry, s.layout.loginRegistry], p.IsOrdinary
  /-- The registries have file names. -/
  registries : ∀ p ∈ [s.layout.screenRegistry, s.layout.loginRegistry], p.fileName.isSome
  /-- The extensions have no slashes. -/
  extensions : '/' ∉ s.extensions.component.toList ∧ '/' ∉ s.extensions.script.toList

instance (p : Path) : Decidable p.IsOrdinary :=
  -- the characters of a name are looked at one after the other
  haveI (s : String) : Decidable (∀ c ∈ s.toList, isReserved c = false) := List.decidableBAll _ _
  decidable_of_iff
    (p.components = p.names.map .name ∧ ∀ s ∈ p.names, ∀ c ∈ s.toList, isReserved c = false)
    ⟨fun h => ⟨h.1, h.2⟩, fun h => ⟨h.components, h.plain⟩⟩

instance (s : Settings) : Decidable s.IsOrdinary :=
  decidable_of_iff
    ((∀ p ∈ [s.layout.screensDir, s.layout.componentsDir, s.layout.reduxDir, s.layout.apiDir,
        s.layout.navigationDir, s.layout.screenRegistry, s.layout.loginRegistry], p.IsOrdinary) ∧
      (∀ p ∈ [s.layout.screenRegistry, s.layout.loginRegistry], p.fileName.isSome) ∧
      '/' ∉ s.extensions.component.toList ∧ '/' ∉ s.extensions.script.toList)
    ⟨fun h => ⟨h.1, h.2.1, h.2.2⟩, fun h => ⟨h.paths, h.registries, h.extensions⟩⟩

namespace Path

/-- The directory of the file is a way through names. -/
structure IsPlaced (file : Path) : Prop where
  /-- The names above the file are the steps of its parent. -/
  parent : (file.parent.map steps).getD [] = file.names.dropLast.map .name
  /-- They name directories. -/
  isSegment : ∀ s ∈ file.names.dropLast, IsSegment s

variable {p file target : Path} {s : String}

/-- A file at a path that goes down is placed. -/
theorem IsDownward.isPlaced (h : p.IsDownward) (hne : p.components ≠ []) : p.IsPlaced := by
  obtain ⟨dir, hdir, hcomponents⟩ := exists_parent (h.isSegment_first hne)
  have hnames : dir.components = p.names.dropLast.map .name := by
    rw [hcomponents, h.components, List.map_dropLast]
  have hdown := IsDownward.of_names hnames fun t ht => h.slash t (List.dropLast_subset _ ht)
  refine ⟨?_, fun t ht => h.isSegment (List.dropLast_subset _ ht)⟩
  rw [hdir, Option.map_some, Option.getD_some, hdown.1.steps_eq, hnames]

/-- Names that are joined to a path that goes down come behind its names. -/
theorem IsDownward.components_join (h : p.IsDownward) (hs : IsSegment s) {rest : List String}
    (hrest : rest.filterMap Component.ofSegment = rest.map .name) :
    (p.join ⟨s, rest⟩).components = (p.names ++ s :: rest).map .name := by
  rw [Path.components_join (q := ⟨s, rest⟩) p hs, components_of_isSegment (p := ⟨s, rest⟩) hs, hrest,
    h.components, List.map_append, List.map_cons]

/-- The names of a file in a directory. -/
theorem names_join_file (p : Path) (hs : IsSegment s) : (p.join ⟨s, []⟩).names = p.names ++ [s] := by
  have hcomponents := components_join (q := ⟨s, []⟩) p hs
  rw [components_of_segment hs] at hcomponents
  rw [names, hcomponents, List.map_append]
  rfl

/-- A file in a directory that goes down is placed. -/
theorem IsDownward.isPlaced_join (h : p.IsDownward) (hs : IsSegment s) :
    (p.join ⟨s, []⟩).IsPlaced := by
  have hnames : (p.join ⟨s, []⟩).names.dropLast = p.names := by
    rw [names_join_file p hs, List.dropLast_concat]
  obtain ⟨dir, hdir, hcomponents⟩ := exists_parent (h.isSegment_first_join (q := ⟨s, []⟩) hs)
  have hdircomponents : dir.components = p.names.map .name := by
    rw [hcomponents, h.components_join hs rfl, List.map_append, List.map_singleton,
      List.dropLast_concat]
  have hdown := IsDownward.of_names hdircomponents h.slash
  refine ⟨?_, ?_⟩
  · rw [hdir, Option.map_some, Option.getD_some, hdown.1.steps_eq, hdircomponents, hnames]
  · rw [hnames]
    exact fun t ht => h.isSegment ht

/-- The steps of an ordinary path have no reserved characters. -/
theorem IsOrdinary.plain_steps (h : p.IsOrdinary) :
    ∀ c ∈ p.steps, ∀ d ∈ c.text.toList, isReserved d = false := by
  intro c hc
  rw [h.steps_eq] at hc
  exact h.plain _ (List.mem_map_of_mem hc)

/-- A slash is reserved. -/
theorem notMem_slash_of_plain (h : ∀ d ∈ s.toList, isReserved d = false) : '/' ∉ s.toList :=
  fun hslash => absurd (h _ hslash) (by decide)

/-- A quote is reserved. -/
theorem notMem_quote_of_plain (h : ∀ d ∈ s.toList, isReserved d = false) : '\x27' ∉ s.toList :=
  fun hquote => absurd (h _ hquote) (by decide)

/-- The specifier of an ordinary target leads to it, and nothing in it ends a quoted text. -/
theorem IsPlaced.specifier (h : file.IsPlaced) (htarget : target.IsOrdinary) :
    Specifier.resolve file.names.dropLast (moduleSpecifier file target) = some target.names ∧
      '\x27' ∉ (moduleSpecifier file target).toList := by
  refine ⟨?_, fun hquote => ?_⟩
  · rw [resolve_moduleSpecifier h.parent h.isSegment fun c hc =>
      notMem_slash_of_plain (htarget.plain_steps c hc)]
    exact Specifier.follow_names fun t ht => htarget.isDownward.isSegment ht
  · exact forall_mem_moduleSpecifier (P := fun d => d ≠ '\x27') (by decide) (by decide)
      (fun c hc d hd heq => notMem_quote_of_plain (htarget.plain_steps c hc) (heq ▸ hd)) file _ hquote
      rfl

/-- Names mean themselves. -/
theorem filterMap_of_isSegment {segments : List String} (h : ∀ t ∈ segments, IsSegment t) :
    segments.filterMap Component.ofSegment = segments.map .name := by
  induction segments with
  | nil => rfl
  | cons t segments ih =>
    rw [List.filterMap_cons_some (h t List.mem_cons_self),
      ih fun u hu => h u (List.mem_cons_of_mem _ hu), List.map_cons]

/-- A path below an ordinary one is ordinary. -/
theorem IsOrdinary.join (hp : p.IsOrdinary) (hs : IsSegment s) {rest : List String}
    (hrest : ∀ t ∈ rest, IsSegment t) (hplain : ∀ t ∈ s :: rest, ∀ d ∈ t.toList, isReserved d = false) :
    (p.join ⟨s, rest⟩).IsOrdinary ∧ (p.join ⟨s, rest⟩).names = p.names ++ s :: rest := by
  refine IsOrdinary.of_names (hp.isDownward.components_join hs (filterMap_of_isSegment hrest)) ?_
  intro t ht
  rcases List.mem_append.mp ht with ht | ht
  · exact hp.plain t ht
  · exact hplain t ht

end Path

/-- A text with a character other than a dot names an entry. -/
theorem isSegment_of_mem {s : String} {c : Char} (hc : c ∈ s.toList) (hdot : c ≠ '.') :
    IsSegment s := by
  rw [isSegment_iff]
  refine ⟨?_, ?_, ?_⟩
  · rintro rfl
    simp at hc
  · rintro rfl
    exact hdot (by simpa using hc)
  · rintro rfl
    exact hdot (by simpa using hc)

/-- Identifiers have no reserved characters. -/
theorem isReserved_of_isIdentifierTail {c : Char} (h : Name.isIdentifierTail c = true) :
    isReserved c = false := by
  have hall : ∀ n, n < 128 → Name.isIdentifierTail (Char.ofNat n) = true →
      isReserved (Char.ofNat n) = false := by
    decide
  exact Text.of_ascii (P := fun c => Name.isIdentifierTail c = true → isReserved c = false) hall
    (toNat_lt_of_isIdentifierTail h) h

/-- An identifier is an ordinary name. -/
theorem isSegment_of_isIdentifier {name : String} (h : Name.isIdentifier name = true) :
    IsSegment name ∧ ∀ c ∈ name.toList, isReserved c = false := by
  obtain ⟨c, hc, htail⟩ := exists_mem_of_isIdentifier h
  exact ⟨isSegment_of_mem hc (ne_of_isIdentifierTail htail).1, fun d hd =>
    isReserved_of_isIdentifierTail (Script.isIdentifierTail_of_mem h hd)⟩

namespace Settings

variable {s : Settings} {v : Volume} {root : Path} {name : String} {p : Parameters}

end Settings

end AppScaffold
