import AppScaffold.Proofs.Project.Additions
import AppScaffold.Proofs.Script.Elements
import Mathlib.Data.List.Basic
import Mathlib.Tactic.Common

/-!
# Entries of artifacts and empty elements

The entries of screens and reducers have no empty elements of their own, whatever the artifact is called.
Put into a literal without empty elements they make one only behind a stray blank.
-/

namespace AppScaffold

namespace Script

/-- Identifiers hold no comma. -/
theorem comma_notMem {s : List Char} (h : ∀ c ∈ s, Name.isIdentifierTail c = true) : ',' ∉ s :=
  fun hmem => absurd (h ',' hmem) (by decide)

/-- A text without quotes and slashes is settled. -/
theorem settled_of_plain {s : List Char} (h : ∀ c ∈ s, isPlain c = true) : Settled s := by
  refine settled_of_modeAfter (read_plain h none).2 fun hlast => ?_
  exact absurd (h '/' (List.mem_of_getLast? hlast)) (by decide)

/-- The entry of a screen has no empty element. -/
theorem filled_screen {name : String} (h : Name.isIdentifier name = true) :
    Filled (roles .code (Text.join "\n" (Skeleton.screenEntry name)).toList) := by
  have hname := fun c hc => isIdentifierTail_of_mem (c := c) h hc
  have hplain := fun c hc => plain_of_isIdentifierTail (hname c hc)
  have hcomma := comma_notMem hname
  have hpieces : (Text.join "\n" (Skeleton.screenEntry name)).toList =
      ("    \x7b\n        name: ".toList ++ '\x22' :: (name.toList ++ ['\x22'])) ++
        ',' :: (("\n        component: ".toList ++ name.toList) ++
          ',' :: "\n        options: \x7b headerShown: false \x7d,\n    \x7d,".toList) := by
    simp [Skeleton.screenEntry, Skeleton.braced, Text.join]
  have hlead : Settled "    \x7b\n        name: ".toList :=
    settled_of_plain (List.all_eq_true.mp (by decide))
  have hquoted : Settled ('\x22' :: (name.toList ++ ['\x22'])) := by
    refine (Nests.of_quoted (a := 0) fun c hc => ⟨?_, (hplain c hc).2.2.2.2.1⟩).settled
    rintro rfl
    exact absurd (hplain _ hc).1 (by decide)
  have hcomponent : Settled "\n        component: ".toList :=
    settled_of_plain (List.all_eq_true.mp (by decide))
  rw [hpieces]
  refine filled_element (hlead.append hquoted) ?_ ?_ (filled_element
    (hcomponent.append (settled_of_plain fun c hc => (hplain c hc).1)) ?_ ?_ (by decide))
  · simp [hcomma]
  · rw [hlead.roles_append, solid_append]
    exact List.append_ne_nil_of_left_ne_nil (by decide) _
  · simp [hcomma]
  · rw [hcomponent.roles_append, solid_append]
    exact List.append_ne_nil_of_left_ne_nil (by decide) _

/-- The entry of a reducer has no empty element. -/
theorem filled_reducer {slice : String} (h : ∀ c ∈ slice.toList, Name.isIdentifierTail c = true) :
    Filled (roles .code (Skeleton.reducerEntry slice).toList) := by
  have hcomma := comma_notMem h
  have hslice : Settled slice.toList :=
    settled_of_plain fun c hc => (plain_of_isIdentifierTail (h c hc)).1
  have hlead : Settled "    ".toList := settled_of_plain (List.all_eq_true.mp (by decide))
  have hcolon : Settled ": ".toList := settled_of_plain (List.all_eq_true.mp (by decide))
  have hend : Settled "Reducer".toList := settled_of_plain (List.all_eq_true.mp (by decide))
  have hpieces : (Skeleton.reducerEntry slice).toList =
      (("    ".toList ++ slice.toList) ++ (": ".toList ++ (slice.toList ++ "Reducer".toList))) ++
        [','] := by
    simp [Skeleton.reducerEntry]
  rw [hpieces]
  refine filled_element ((hlead.append hslice).append (hcolon.append (hslice.append hend))) ?_ ?_
    (by decide)
  · simp [hcomma]
  · rw [(hlead.append hslice).roles_append, solid_append, hcolon.roles_append, solid_append]
    exact List.append_ne_nil_of_right_ne_nil _ (List.append_ne_nil_of_left_ne_nil (by decide) _)

end Script

namespace Template

open Script

variable {a : Archetype} {p : Parameters} {e : RegistryEntry}

/-- What a screen or a reducer adds to a registry ends with a comma and has no empty element. -/
theorem filled_of_registryEntry (ha : a ∈ [.screen, .loginScreen, .reducer])
    (h : registryEntry a p = .ok (some e)) :
    IsEntry e.entry.fragment.toList ∧ Filled (roles .code e.entry.fragment.toList) := by
  cases entryOf_of_registryEntry h with
  | screen _ hname | loginScreen _ hname => exact ⟨isEntry_screen hname, filled_screen hname⟩
  | slice _ hname =>
    have hslice := fun c hc => isIdentifierTail_of_mem_camel (c := c) hname hc
    exact ⟨isEntry_reducer hslice, filled_reducer hslice⟩
  | functions | screenFunctions => exact absurd ha (by decide)

/-- A patch of a literal with the entry of a screen or a reducer, with an import that leads in or without
one, succeeds. The literal of the patched script has no empty element exactly if that of the script had
none and did not end with a stray blank. -/
theorem applyPatch_filled_iff {anchor : Anchor} (hanchor : anchor.Named) {cs : List Char} {l : Literal}
    (hl : anchor.literal cs = some l) (ha : a ∈ [.screen, .loginScreen, .reducer])
    (he : registryEntry a p = .ok (some e)) {importLine : Option (List Char)}
    (himport : ∀ line ∈ importLine, LeadsIn cs line l.start) :
    ∃ out l', applyPatch cs anchor e.entry.fragment.toList importLine = some out ∧
      anchor.literal out = some l' ∧
      (Filled (roles .code l'.inside) ↔
        Filled (roles .code l.inside) ∧ ¬Stray (roles .code l.inside)) := by
  obtain ⟨hentry, hfilled⟩ := filled_of_registryEntry ha he
  obtain ⟨hclosed, out, l', hpatch, hl', henters⟩ :=
    exists_enters hanchor hl hentry.selfContained himport
  exact ⟨out, l', hpatch, hl', henters.filled_iff hanchor hclosed hentry.selfContained hfilled⟩

/-- Behind the comma stands a blank that is not ASCII. It is taken for an element, and the comma that is
put in behind it closes an empty one. -/
theorem applyPatch_filled_iff_stray :
    (Anchor.arrayLiteral "xs").Named ∧
      Archetype.screen ∈ [.screen, .loginScreen, .reducer] ∧
      registryEntry .screen ⟨[("name", .text "Home")]⟩ =
        .ok (some (screenEntry .screenRegistry "Home")) ∧
      LeadsIn "export const xs = [\n    a,\u00a0\n];\n".toList
        "import Home from './src/Screens/Home';".toList 0 ∧
      ∃ l out l', (Anchor.arrayLiteral "xs").literal
          "export const xs = [\n    a,\u00a0\n];\n".toList = some l ∧
        Filled (roles .code l.inside) ∧
        applyPatch "export const xs = [\n    a,\u00a0\n];\n".toList (.arrayLiteral "xs")
          (screenEntry .screenRegistry "Home").entry.fragment.toList
          (some "import Home from './src/Screens/Home';".toList) = some out ∧
        (Anchor.arrayLiteral "xs").literal out = some l' ∧
        ¬Filled (roles .code l'.inside) := by
  have hnamed : (Anchor.arrayLiteral "xs").Named := isDeclarationCharacter_of_mem (by decide)
  have ha : Archetype.screen ∈ [.screen, .loginScreen, .reducer] := List.mem_cons_self
  have he : registryEntry .screen ⟨[("name", .text "Home")]⟩ =
      .ok (some (screenEntry .screenRegistry "Home")) := rfl
  have hmodule : ("./src/Screens/Home".toList.all fun c => !isQuote c) = true := by decide
  have hline : IsImportLine "import Home from './src/Screens/Home';".toList :=
    ⟨"Home".toList, "./src/Screens/Home".toList, by decide, List.all_eq_true.mp (by decide),
      fun c hc => by simpa using List.all_eq_true.mp hmodule c hc⟩
  have himport : LeadsIn "export const xs = [\n    a,\u00a0\n];\n".toList
      "import Home from './src/Screens/Home';".toList 0 :=
    ⟨hline, by decide +kernel, by decide +kernel, by decide +kernel⟩
  have hliteral : ((Anchor.arrayLiteral "xs").literal
      "export const xs = [\n    a,\u00a0\n];\n".toList).map (fun l => (l.start, l.inside)) =
        some (0, "\n    a,\u00a0\n".toList) := by
    decide +kernel
  obtain ⟨l, hl, hparts⟩ := Option.map_eq_some_iff.mp hliteral
  obtain ⟨hstart, hinside⟩ := Prod.mk.inj hparts
  obtain ⟨out, l', hpatch, hl', hiff⟩ := applyPatch_filled_iff hnamed hl ha he
    (show ∀ line ∈ some "import Home from './src/Screens/Home';".toList, LeadsIn _ line l.start by
      rintro _ ⟨⟩
      exact hstart ▸ himport)
  have hfilled : Filled (roles .code l.inside) := by
    rw [hinside]
    decide +kernel
  have hstray : Stray (roles .code l.inside) := by
    rw [hinside]
    exact ⟨⟨'\u00a0', by decide +kernel⟩, by decide +kernel⟩
  exact ⟨hnamed, ha, he, himport, l, out, l', hl, hfilled, hpatch, hl', fun h => (hiff.mp h).2 hstray⟩

end Template

end AppScaffold
