import AppScaffold.Proofs.Project.Places
import AppScaffold.Proofs.Script.Nesting
import Mathlib.Data.List.Basic
import Mathlib.Tactic.Common

/-!
# What is in the registries of a new project

A registry of a new project holds one import line and one entry for each artifact that was added to
it, in order. What a template adds can always be added: its import is one line, and its entry closes
what it opens and ends with a comma. A module of network functions holds its seed and the functions.
-/

namespace AppScaffold

namespace Aggregator

/-- The lines around the imports and entries of a list or table: those before the imports, the one that
opens the literal and the one that closes it. -/
def frame : Aggregator → Option (List String × String × String)
  | screenRegistry => some ([], "export const stackScreens = [", "];")
  | loginRegistry => some ([], "export const loginScreens = [", "];")
  | reducerRegistry =>
    some ([Skeleton.importNamed "combineReducers" "@reduxjs/toolkit"],
      "export const rootReducer = combineReducers(\x7b", "\x7d);")
  | apiFunctions | screenApi _ => none

/-- The import lines of entries. -/
def importLines (a : Aggregator) (entries : List Script.Entry) : List String :=
  entries.filterMap fun e => e.importLine.map (·.render ⟨"src", a.location⟩)

/-- What is in a registry to which the entries were added, at least one of them. -/
def content (a : Aggregator) (entries : List Script.Entry) : String :=
  match a.frame with
  | some (lead, opening, closing) =>
    Skeleton.text (lead ++ a.importLines entries ++
      "" :: opening :: entries.map Script.Entry.fragment ++ [closing])
  | none =>
    Skeleton.text (a.seed {} ⟨"src", a.location⟩) ++
      String.join (entries.map Script.Entry.fragment)

/-- An entry that can be added to a registry: with an import line to a list or table, and without one
to a module of functions. -/
structure Takes (a : Aggregator) (e : Script.Entry) : Prop where
  /-- An entry of a list or table ends with a comma and has an import. -/
  literal : a.frame ≠ none → Script.IsEntry e.fragment.toList ∧
    ∃ i, e.importLine = some i ∧ Script.IsWholeImport (i.render ⟨"src", a.location⟩).toList
  /-- Functions end with a line. -/
  functions : a.frame = none → e.importLine = none ∧
    (e.fragment = "" ∨ e.fragment.toList.getLast? = some '\n')

end Aggregator

namespace Skeleton

/-- The characters of lines. -/
theorem toList_text (lines : List String) :
    (text lines).toList = Script.withEnds (lines.map String.toList) := by
  induction lines with
  | nil => rfl
  | cons line lines ih =>
    rw [text, String.toList_append, String.toList_append, ih, List.map_cons, Script.withEnds,
      Script.withEnds, List.flatMap_cons]
    rfl

/-- Lines end with a line end. -/
theorem text_ends (lines : List String) :
    text lines = "" ∨ (text lines).toList.getLast? = some '\n' := by
  rcases List.eq_nil_or_concat' lines with rfl | ⟨front, line, rfl⟩
  · exact .inl rfl
  · refine .inr ?_
    rw [toList_text, List.map_append, Script.withEnds_append]
    simp [Script.withEnds]

end Skeleton

namespace Aggregator

variable {a : Aggregator}

/-- The registry of a list or table, piece by piece. -/
def registry (a : Aggregator) (lead : List String) (opening closing : String)
    (entries : List Script.Entry) : Script.Registry where
  imports := (lead ++ a.importLines entries).map String.toList
  opening := opening.toList
  entries := entries.map fun e => e.fragment.toList
  closing := closing.toList

/-- What is around the imports and entries of a list or table is what it should be. -/
structure Framed (a : Aggregator) (lead : List String) (opening closing : String) : Prop where
  /-- Declarations with the name of the list or table are looked for. -/
  named : a.anchor.Named
  /-- The opening line is one. -/
  opens : (a.anchor.parts.bind fun parts => Script.afterParts parts opening.toList) = some []
  /-- The literal is closed. -/
  closes : ∃ c t, closing.toList = c :: t ∧ Script.isClosing c = true
  /-- The lines before the imports are imports. -/
  imports : ∀ line ∈ lead, Script.IsWholeImport line.toList
  /-- The seed has nothing else. -/
  seed : a.seed {} ⟨"src", a.location⟩ =
    lead ++ (if lead.isEmpty then [] else [""]) ++ [opening, closing]

/-- The lists and tables of the library are framed. -/
theorem framed {lead : List String} {opening closing : String}
    (h : a.frame = some (lead, opening, closing)) : a.Framed lead opening closing := by
  cases a with
  | screenRegistry | loginRegistry =>
    obtain ⟨rfl, hrest⟩ := Prod.mk.inj (Option.some.inj h)
    obtain ⟨rfl, rfl⟩ := Prod.mk.inj hrest
    refine ⟨Script.isDeclarationCharacter_of_mem (by decide), by decide +kernel, ?_, by simp, rfl⟩
    exact ⟨']', [';'], by decide, by decide⟩
  | reducerRegistry =>
    obtain ⟨rfl, hrest⟩ := Prod.mk.inj (Option.some.inj h)
    obtain ⟨rfl, rfl⟩ := Prod.mk.inj hrest
    refine ⟨fun c hc => ?_, by decide +kernel, ?_, fun line hline => ?_, rfl⟩
    · rcases List.mem_append.mp hc with hc | hc
      · exact Script.isDeclarationCharacter_of_mem
          (show Name.isIdentifier "rootReducer" = true by decide) c hc
      · exact Script.isDeclarationCharacter_of_mem
          (show Name.isIdentifier "combineReducers" = true by decide) c hc
    · exact ⟨'\x7d', [')', ';'], by decide, by decide⟩
    · have hnames : ("\x7b combineReducers \x7d".toList.all fun c =>
          Script.isBindingCharacter c && c != '\n') = true := by
        decide
      have hmodule : ("@reduxjs/toolkit".toList.all fun c =>
          !Script.isQuote c && c != '\\' && c != '\n') = true := by
        decide
      have hnames' : ∀ c ∈ "\x7b combineReducers \x7d".toList,
          Script.isBindingCharacter c = true ∧ c ≠ '\n' := fun c hc => by
        simpa using List.all_eq_true.mp hnames c hc
      have hmodule' : ∀ c ∈ "@reduxjs/toolkit".toList,
          Script.isQuote c = false ∧ c ≠ '\\' ∧ c ≠ '\n' := fun c hc => by
        simpa [and_assoc] using List.all_eq_true.mp hmodule c hc
      rw [List.mem_singleton.mp hline]
      exact Script.isWholeImport_of_spelled hnames' hmodule'
  | apiFunctions | screenApi _ => cases h

/-- What is in a registry before an entry is added: its seed, if there is no entry yet. -/
def current (a : Aggregator) (entries : List Script.Entry) : String :=
  if entries = [] then Skeleton.text (a.seed {} ⟨"src", a.location⟩) else a.content entries

/-- The imports of more entries are those of the entries in turn. -/
theorem importLines_append (a : Aggregator) (entries entries' : List Script.Entry) :
    a.importLines (entries ++ entries') = a.importLines entries ++ a.importLines entries' :=
  List.filterMap_append

section Literal

variable {lead : List String} {opening closing : String} {entries : List Script.Entry}

/-- The text of a list or table is put together from its pieces. -/
theorem toList_current (h : a.frame = some (lead, opening, closing))
    (hentries : ∀ e ∈ entries, a.Takes e) :
    (a.current entries).toList = (a.registry lead opening closing entries).text := by
  rw [current, Script.Registry.text]
  by_cases hnil : entries = []
  · subst hnil
    have hlead : (a.registry lead opening closing []).imports = lead.map String.toList := by
      simp [registry, importLines]
    rw [if_pos rfl, (framed h).seed, Skeleton.toList_text, hlead]
    cases lead with
    | nil => rfl
    | cons line lead => simp [registry]
  · have himports : (a.registry lead opening closing entries).imports.isEmpty = false := by
      obtain ⟨e, entries, rfl⟩ := List.exists_cons_of_ne_nil hnil
      obtain ⟨-, i, hi, -⟩ := (hentries e List.mem_cons_self).literal (by rw [h]; simp)
      simp [registry, importLines, hi]
    rw [if_neg hnil, himports, content, h, Skeleton.toList_text]
    simp [registry, Function.comp_def]

/-- The pieces of a list or table with entries that can be added are sound. -/
theorem registry_sound (h : a.frame = some (lead, opening, closing))
    (hentries : ∀ e ∈ entries, a.Takes e) {parts : List Script.Part}
    (hparts : a.anchor.parts = some parts) :
    (a.registry lead opening closing entries).Sound parts where
  imports i hi := by
    obtain ⟨mark, parts', hparts', hd⟩ := (framed h).named.exists_parts
    obtain rfl : parts' = parts := Option.some.inj (hparts'.symm.trans hparts)
    obtain ⟨line, hline, rfl⟩ := List.mem_map.mp hi
    rcases List.mem_append.mp hline with hline | hline
    · exact ((framed h).imports line hline).passes hd
    · obtain ⟨e, he, hmap⟩ := List.mem_filterMap.mp hline
      obtain ⟨-, j, hj, hwhole⟩ := (hentries e he).literal (by rw [h]; simp)
      rw [hj, Option.map_some, Option.some.injEq] at hmap
      rw [← hmap]
      exact hwhole.passes hd
  opening := by
    have hopens := (framed h).opens
    rw [hparts, Option.bind_some] at hopens
    obtain ⟨m, hm, heq⟩ := Script.fits_of_afterParts hopens
    rw [List.append_nil] at heq
    rwa [registry, heq]
  entries e he := by
    obtain ⟨entry, hentry, rfl⟩ := List.mem_map.mp he
    exact ((hentries entry hentry).literal (by rw [h]; simp)).1
  closing := (framed h).closes

/-- A patch adds an entry to a list or table. -/
theorem applyPatch_literal (h : a.frame = some (lead, opening, closing))
    (hentries : ∀ e ∈ entries, a.Takes e) {e : Script.Entry} (he : a.Takes e) :
    Script.applyPatch (a.current entries).toList a.anchor e.fragment.toList
        (e.importLine.map fun i => (i.render ⟨"src", a.location⟩).toList) =
      some (a.content (entries ++ [e])).toList := by
  obtain ⟨mark, parts, hparts, hd⟩ := (framed h).named.exists_parts
  obtain ⟨-, i, hi, -⟩ := he.literal (by rw [h]; simp)
  have hanchor : a.anchor ≠ .fileEnd := by
    intro hend
    rw [hend] at hparts
    cases hparts
  have hadd : (a.registry lead opening closing entries).add e.fragment.toList
      (i.render ⟨"src", a.location⟩).toList =
        a.registry lead opening closing (entries ++ [e]) := by
    have himport : a.importLines [e] = [i.render ⟨"src", a.location⟩] := by
      rw [importLines, List.filterMap_cons, hi]
      rfl
    simp only [Script.Registry.add, registry, importLines_append, himport, List.map_append,
      List.map_cons, List.map_nil, List.append_assoc]
  have hnext : a.current (entries ++ [e]) = a.content (entries ++ [e]) := if_neg (by simp)
  have hall : ∀ e' ∈ entries ++ [e], a.Takes e' := fun e' he' =>
    (List.mem_append.mp he').elim (hentries e') fun hmem => List.mem_singleton.mp hmem ▸ he
  rw [hi, Option.map_some, toList_current h hentries,
    (registry_sound h hentries hparts).applyPatch_eq hparts hd hanchor, hadd, ← hnext,
    toList_current h hall]

end Literal

/-- Functions end with a line, one after the other. -/
theorem join_ends (h : a.frame = none) {entries : List Script.Entry}
    (hentries : ∀ e ∈ entries, a.Takes e) :
    String.join (entries.map Script.Entry.fragment) = "" ∨
      (String.join (entries.map Script.Entry.fragment)).toList.getLast? = some '\n' := by
  induction entries with
  | nil => exact .inl (by simp)
  | cons e entries ih =>
    rw [List.map_cons, String.join_cons]
    rcases ih fun e' he' => hentries e' (List.mem_cons_of_mem _ he') with hrest | hrest
    · rw [hrest, String.append_empty]
      exact ((hentries e List.mem_cons_self).functions h).2
    · refine .inr ?_
      rw [String.toList_append, List.getLast?_append, hrest, Option.some_or]

/-- A patch appends functions to their module. -/
theorem applyPatch_functions (h : a.frame = none) {entries : List Script.Entry}
    (hentries : ∀ e ∈ entries, a.Takes e) {e : Script.Entry} (he : a.Takes e) :
    Script.applyPatch (a.current entries).toList a.anchor e.fragment.toList
        (e.importLine.map fun i => (i.render ⟨"src", a.location⟩).toList) =
      some (a.content (entries ++ [e])).toList := by
  have hanchor : a.anchor = .fileEnd := by
    cases a with
    | apiFunctions | screenApi _ => rfl
    | _ => cases h
  have hcurrent : a.current entries = Skeleton.text (a.seed {} ⟨"src", a.location⟩) ++
      String.join (entries.map Script.Entry.fragment) := by
    rw [current, content, h]
    split_ifs with hnil
    · subst hnil
      simp
    · rfl
  have hends : (a.current entries).toList.getLast? = some '\n' := by
    have hseed : (Skeleton.text (a.seed {} ⟨"src", a.location⟩)).toList.getLast? = some '\n' := by
      refine (Skeleton.text_ends _).resolve_left fun hempty => ?_
      have hlines : ∃ line lines, a.seed {} ⟨"src", a.location⟩ = line :: lines := by
        cases a with
        | _ => exact ⟨_, _, rfl⟩
      obtain ⟨line, lines, hlines⟩ := hlines
      rw [hlines, Skeleton.text] at hempty
      simp at hempty
    rw [hcurrent, String.toList_append, List.getLast?_append]
    rcases join_ends h hentries with hrest | hrest
    · rw [hrest, hseed]
      rfl
    · rw [hrest, Option.some_or]
  have hnext : a.content (entries ++ [e]) = a.current entries ++ e.fragment := by
    rw [hcurrent, content, h]
    simp [String.append_assoc]
  rw [hanchor, (he.functions h).1, hnext, String.toList_append, Option.map_none]
  simp only [Script.applyPatch, Script.Anchor.locate, Script.Anchor.parts, Option.map_some, hends,
    bne_self_eq_false, Bool.and_false, Script.entryBlock, if_true, Bool.false_eq_true, if_false,
    List.nil_append, Script.insertAt, List.take_length, List.drop_length, List.append_nil]

/-- A patch adds an entry to a registry. -/
theorem applyPatch_eq {entries : List Script.Entry} (hentries : ∀ e ∈ entries, a.Takes e)
    {e : Script.Entry} (he : a.Takes e) :
    Script.applyPatch (a.current entries).toList a.anchor e.fragment.toList
        (e.importLine.map fun i => (i.render ⟨"src", a.location⟩).toList) =
      some (a.content (entries ++ [e])).toList := by
  cases h : a.frame with
  | none => exact applyPatch_functions h hentries he
  | some frame =>
    obtain ⟨lead, opening, closing⟩ := frame
    exact applyPatch_literal h hentries he

end Aggregator

/-- The characters of joined pieces are those of the pieces and of what stands between them. -/
theorem Text.mem_toList_join {sep : String} {pieces : List String} {c : Char}
    (h : c ∈ (Text.join sep pieces).toList) :
    c ∈ sep.toList ∨ ∃ piece ∈ pieces, c ∈ piece.toList := by
  induction pieces with
  | nil => simp [Text.join] at h
  | cons piece pieces ih =>
    cases pieces with
    | nil => exact .inr ⟨piece, List.mem_cons_self, h⟩
    | cons next pieces =>
      rw [Text.join, String.toList_append, String.toList_append, List.mem_append,
        List.mem_append] at h
      · rcases h with (h | h) | h
        · exact .inr ⟨piece, List.mem_cons_self, h⟩
        · exact .inl h
        · refine (ih h).imp_right ?_
          rintro ⟨p, hp, hc⟩
          exact ⟨p, List.mem_cons_of_mem _ hp, hc⟩
      · simp

/-- The characters of a specifier are dots, slashes and those of its target. -/
theorem Path.mem_toList_moduleSpecifier {file target : Path} {c : Char}
    (h : c ∈ (Path.moduleSpecifier file target).toList) :
    c = '.' ∨ c = '/' ∨ ∃ s ∈ target.first :: target.rest, c ∈ s.toList := by
  have hcomponent : ∀ component ∈ target.components, ∀ c ∈ component.text.toList,
      c = '.' ∨ c = '/' ∨ ∃ s ∈ target.first :: target.rest, c ∈ s.toList := by
    intro component hmem c hc
    rcases List.mem_append.mp hmem with hlead | hrest
    · rw [Path.lead] at hlead
      split_ifs at hlead
      · cases hlead
      · rw [List.mem_singleton.mp hlead] at hc
        exact .inr (.inl (by simpa [Component.text] using hc))
      · rw [List.mem_singleton.mp hlead] at hc
        exact .inl (by simpa [Component.text] using hc)
      · rw [List.mem_singleton.mp hlead] at hc
        exact .inl (by simpa [Component.text] using hc)
      · rw [List.mem_singleton.mp hlead] at hc
        exact .inr (.inr ⟨_, List.mem_cons_self, hc⟩)
    · obtain ⟨s, hs, hsegment⟩ := List.mem_filterMap.mp hrest
      rw [Component.ofSegment] at hsegment
      split_ifs at hsegment
      · rw [← Option.some.inj hsegment] at hc
        exact .inl (by simpa [Component.text] using hc)
      · rw [← Option.some.inj hsegment] at hc
        exact .inr (.inr ⟨s, List.mem_cons_of_mem _ hs, hc⟩)
  rcases Text.mem_toList_join h with h | ⟨piece, hpiece, hc⟩
  · exact .inr (.inl (by simpa using h))
  · rw [Path.wayBetween] at hpiece
    rcases List.mem_append.mp hpiece with hpiece | hpiece
    · refine .inl ?_
      split_ifs at hpiece
      · rw [List.mem_singleton.mp hpiece] at hc
        simpa using hc
      · rw [List.eq_of_mem_replicate hpiece] at hc
        simpa using hc
    · obtain ⟨component, hmem, rfl⟩ := List.mem_map.mp hpiece
      exact hcomponent component (List.mem_of_mem_filter (List.mem_of_mem_drop hmem)) c hc

end AppScaffold
