import AppScaffold.Proofs.Script.Entries
import AppScaffold.Proofs.Script.ImportLines
import AppScaffold.Proofs.Script.ImportPlace
import Mathlib.Data.List.Basic
import Mathlib.Tactic.Common

/-!
# How a registry grows

A registry that was made from its seed and only ever patched has one import line for each entry, an
empty line, the declaration, and the entries, each below the one before it. A patch finds its places
in such a text however long it has become, and what it leaves is the text of the longer registry.
-/

namespace AppScaffold.Script

/-- What stands in a registry that was only ever patched. -/
structure Registry where
  /-- The import lines. -/
  imports : List (List Char)
  /-- The line of the declaration, up to the bracket that opens the literal. -/
  opening : List Char
  /-- The entries. -/
  entries : List (List Char)
  /-- The line of the bracket that closes the literal. -/
  closing : List Char

namespace Registry

/-- The text of a registry: its lines, with an empty line behind the imports. -/
def text (r : Registry) : List Char :=
  withEnds (r.imports ++ (if r.imports.isEmpty then [] else [[]]) ++
    r.opening :: (r.entries ++ [r.closing]))

/-- The registry with one more entry and its import line. -/
def add (r : Registry) (fragment line : List Char) : Registry :=
  { r with imports := r.imports ++ [line], entries := r.entries ++ [fragment] }

end Registry

/-- An entry that is closed in itself and ends with a comma. -/
def IsEntry (fragment : List Char) : Prop := ∃ e, fragment = e ++ [','] ∧ IsClosed e

/-- A registry whose pieces are what they should be. -/
structure Registry.Sound (parts : List Part) (r : Registry) : Prop where
  /-- The imports are import lines that the search for the declaration passes over. -/
  imports : ∀ i ∈ r.imports, Passes parts i
  /-- The declaration is the one that is looked for. -/
  opening : Fits parts r.opening
  /-- The entries end with commas. -/
  entries : ∀ e ∈ r.entries, IsEntry e
  /-- The literal is closed. -/
  closing : ∃ c t, r.closing = c :: t ∧ isClosing c = true

/-- Lines are written in order. -/
theorem withEnds_append (ls ls' : List (List Char)) :
    withEnds (ls ++ ls') = withEnds ls ++ withEnds ls' :=
  List.flatMap_append

/-- A comma is closed in itself. -/
theorem isClosed_comma : IsClosed [','] := ⟨by decide, by decide⟩

namespace IsEntry

variable {fragment : List Char}

/-- What is closed is read in the same way in front of a comma, and is closed together with it. -/
theorem read_comma {e : List Char} (h : IsClosed e) :
    roles .code (e ++ [',']) = roles .code e ++ [(',', .code)] ∧ IsClosed (e ++ [',']) := by
  have hread := read_unmarked (n := ',') (by decide) (by decide) .code e
  refine h.append isClosed_comma ?_
  rw [List.head?_cons, roles_eq_rolesBefore, hread.1, hread.2]
  exact ⟨rfl, h.code⟩

/-- An entry is closed. -/
theorem isClosed (h : IsEntry fragment) : IsClosed fragment := by
  obtain ⟨e, rfl, he⟩ := h
  exact (read_comma he).2

/-- An entry can stand anywhere between entries. -/
theorem selfContained (h : IsEntry fragment) : SelfContained fragment := by
  have hclosed := h.isClosed
  obtain ⟨e, rfl, he⟩ := h
  refine ⟨hclosed, ?_, by rw [List.getLast?_concat]; decide⟩
  rw [(read_comma he).1, significant_append]
  exact List.append_ne_nil_of_right_ne_nil _ (by decide)

/-- Behind an entry the reader stands in code. -/
theorem settled (h : IsEntry fragment) : Settled fragment := by
  refine settled_of_modeAfter h.isClosed.code ?_
  obtain ⟨e, rfl, -⟩ := h
  rw [List.getLast?_concat]
  decide

end IsEntry

/-- The entries as they stand in the literal, each on a new line. -/
def withStarts (entries : List (List Char)) : List Char := entries.flatMap ('\n' :: ·)

/-- The line ends in front of lines are the line ends behind the lines before them. -/
theorem withEnds_cons (line : List Char) (lines : List (List Char)) :
    withEnds (line :: lines) = line ++ (withStarts lines ++ ['\n']) := by
  induction lines generalizing line with
  | nil => simp [withEnds, withStarts]
  | cons next lines ih =>
    have hrest := ih next
    rw [withEnds, List.flatMap_cons, ← withEnds, hrest, withStarts, withStarts, List.flatMap_cons]
    simp

/-- Entries below each other are closed, and behind them the reader stands in code. -/
theorem withStarts_closed {entries : List (List Char)} (h : ∀ e ∈ entries, IsEntry e) :
    Settled (withStarts entries) ∧ IsClosed (withStarts entries) := by
  induction entries with
  | nil => exact ⟨fun _ => ⟨rfl, rfl⟩, rfl, rfl⟩
  | cons e entries ih =>
    have he := h e List.mem_cons_self
    have hnl : IsClosed ['\n'] := ⟨by decide, by decide⟩
    obtain ⟨hsettled, hclosed⟩ := ih fun f hf => h f (List.mem_cons_of_mem _ hf)
    have hline : Settled (['\n'] ++ e) := settled_newline.append he.settled
    have hline' : IsClosed (['\n'] ++ e) := (hnl.append he.isClosed (settled_newline _)).2
    exact ⟨hline.append hsettled, (hline'.append hclosed (hline _)).2⟩

/-- The last entry ends with a comma of code. -/
theorem withStarts_ends {entries : List (List Char)} (h : ∀ e ∈ entries, IsEntry e) :
    withStarts entries = [] ∨ ∃ x, withStarts entries = x ++ [','] ∧
      modeAfter (some ',') .code x = .code := by
  rcases List.eq_nil_or_concat' entries with rfl | ⟨front, e, rfl⟩
  · exact .inl rfl
  · obtain ⟨f, rfl, hf⟩ := h e (List.mem_append_right _ (List.mem_singleton.mpr rfl))
    have hfront := (withStarts_closed fun d hd => h d (List.mem_append_left _ hd)).1
    refine .inr ⟨withStarts front ++ (['\n'] ++ f), ?_, ?_⟩
    · rw [withStarts, List.flatMap_append, ← withStarts]
      simp
    · rw [modeAfter_append, (hfront _).2, modeAfter_append, (settled_newline _).2,
        (read_unmarked (by decide) (by decide) .code f).2]
      exact hf.code

/-- The literal is cut behind the last entry, and no comma is needed there. -/
theorem cut_withStarts {entries : List (List Char)} (h : ∀ e ∈ entries, IsEntry e) :
    Cut (withStarts entries) ['\n'] ∧ (withStarts entries).getLast?.any (· != ',') = false := by
  have hends := withStarts_ends h
  refine ⟨⟨((withStarts_closed h).1 _).2, by decide, ?_⟩, ?_⟩
  · refine hends.imp_right fun ⟨x, hx, hcode⟩ => ⟨x, ',', hx, ?_⟩
    rw [hcode]
    decide
  · rcases hends with hnil | ⟨x, hx, -⟩
    · rw [hnil]
      rfl
    · rw [hx, List.getLast?_concat]
      rfl

/-- Two texts put in, the second in front of the first. -/
theorem insertBoth_append (x y z first second : List Char) :
    insertBoth (x ++ (y ++ z)) (x.length + y.length) first x.length second =
      x ++ (second ++ (y ++ (first ++ z))) := by
  rw [insertBoth, if_pos (Nat.le_add_right _ _)]
  have hfirst : insertAt (x ++ (y ++ z)) (x.length + y.length) first = x ++ (y ++ (first ++ z)) := by
    rw [insertAt, ← List.append_assoc x, ← List.length_append, List.take_left, List.drop_left]
    simp only [List.append_assoc]
  rw [hfirst, insertAt, List.take_left, List.drop_left, List.append_assoc]

section Patch

variable {mark : Char} {parts : List Part} {anchor : Anchor}

/-- A text that begins with a declaration has it there. -/
theorem findDeclaration_of_fits (hd : IsDeclaration mark parts) {m : List Char} (hm : Fits parts m)
    (rest : List Char) : findDeclaration (m ++ rest) parts = some ⟨0, m.length⟩ := by
  have hne : m ≠ [] := by
    rintro rfl
    cases hd.starts _ hm
  have hfit : afterParts parts (m ++ rest) = some rest :=
    (afterParts_eq_some_iff hd.delimited).mpr ⟨m, hm, rfl⟩
  have hcode : isCodeIndex (m ++ rest) 0 = true := by
    obtain ⟨c, m, rfl⟩ := List.exists_cons_of_ne_nil hne
    exact (isCodeIndex_append [] c (m ++ rest)).mpr (.inl rfl)
  rw [findDeclaration, spans_of_fit hne hfit, List.find?_cons_of_pos, Nat.zero_add]
  exact hcode

/-- Without the first letter of a declaration there is none. -/
theorem findDeclaration_of_notMem (hd : IsDeclaration mark parts) {q : List Char} (hq : 'e' ∉ q) :
    findDeclaration q parts = none := by
  rw [Option.eq_none_iff_forall_ne_some]
  intro d hfind
  obtain ⟨a, m, r, rfl, hm, -⟩ := hd.split hfind
  have hmem := List.mem_of_head? (hd.starts m hm)
  exact hq (List.mem_append_right _ (List.mem_append_left _ hmem))

namespace Registry

/-- The empty line behind the imports. -/
def gap (r : Registry) : List Char := if r.imports.isEmpty then [] else ['\n']

/-- The pieces of the text: imports, declaration, entries, and the end of the literal. -/
theorem text_eq (r : Registry) :
    r.text = withEnds r.imports ++ ((r.gap ++ (r.opening ++ withStarts r.entries)) ++
      '\n' :: (r.closing ++ ['\n'])) := by
  have hgap : withEnds (if r.imports.isEmpty then [] else [[]]) = r.gap := by
    rw [gap]
    split_ifs <;> rfl
  have hbody : withEnds (r.opening :: (r.entries ++ [r.closing])) =
      r.opening ++ (withStarts r.entries ++ '\n' :: (r.closing ++ ['\n'])) := by
    rw [withEnds_cons, withStarts, List.flatMap_append, ← withStarts]
    simp
  rw [text, withEnds_append, withEnds_append, hgap, hbody]
  simp only [List.append_assoc]

/-- The literal of the text. -/
def literal (r : Registry) : Literal :=
  ⟨(withEnds r.imports ++ r.gap).length, withEnds r.imports ++ r.gap ++ r.opening,
    withStarts r.entries ++ ['\n'], r.closing ++ ['\n']⟩

namespace Sound

variable {r : Registry}

/-- The literal is found in the text. -/
theorem literal_eq (h : r.Sound parts) (hparts : anchor.parts = some parts)
    (hd : IsDeclaration mark parts) : anchor.literal r.text = some r.literal := by
  have hnl : IsClosed ['\n'] := ⟨by decide, by decide⟩
  obtain ⟨hsettled, hclosed⟩ := withStarts_closed h.entries
  obtain ⟨hsealed, hquiet, hnone⟩ := withEnds_quiet hd h.imports
  obtain ⟨hgap, hgap', hgap''⟩ : Sealed parts r.gap ∧ Settled r.gap ∧
      findDeclaration r.gap parts = none := by
    rw [gap]
    split_ifs
    · exact ⟨sealed_nil parts, fun _ => ⟨rfl, rfl⟩, rfl⟩
    · exact ⟨hd.sealed_of_notMem (by decide), settled_newline,
        findDeclaration_of_notMem hd (by decide)⟩
  have hscript : r.text = r.literal.script := by
    rw [text_eq, Literal.script, literal]
    simp only [List.append_assoc, List.cons_append, List.nil_append]
  refine (literal_eq_some_iff hparts hd).mpr ⟨hscript, ?_, (hclosed.append hnl (hsettled _)).2, ?_⟩
  · rw [hscript, Literal.script, literal]
    simp only
    rw [List.append_assoc, findDeclaration_append (hsealed.append hgap) (hquiet.append hgap'),
      findDeclaration_append hsealed hquiet, hnone, hgap'', findDeclaration_of_fits hd h.opening]
    simp only [Option.map_none, Option.or_none, Option.map_some, Option.none_or, Span.shift,
      Nat.zero_add, List.length_append, Nat.add_comm]
  · obtain ⟨c, t, hclosing, hc⟩ := h.closing
    exact ⟨c, t ++ ['\n'], by rw [literal, hclosing]; rfl, hc⟩

/-- One more entry leaves a registry sound. -/
theorem add (h : r.Sound parts) {fragment line : List Char} (hf : IsEntry fragment)
    (hline : Passes parts line) : (r.add fragment line).Sound parts where
  imports i hi := by
    rcases List.mem_append.mp hi with hi | hi
    · exact h.imports i hi
    · rw [List.mem_singleton.mp hi]
      exact hline
  opening := h.opening
  entries e he := by
    rcases List.mem_append.mp he with he | he
    · exact h.entries e he
    · rw [List.mem_singleton.mp he]
      exact hf
  closing := h.closing

/-- The imports of a registry end in front of its declaration. -/
theorem importBlock_eq (h : r.Sound parts) (line : List Char) :
    importBlock r.text r.literal.start line =
      ((withEnds r.imports).length, line ++ '\n' :: (if r.imports.isEmpty then ['\n'] else [])) := by
  have hgap : r.gap = [] ∨ r.gap = ['\n'] := by
    rw [gap]
    split_ifs
    · exact .inl rfl
    · exact .inr rfl
  have hend := importBlockEnd_withEnds h.imports hgap
    (r.opening ++ withStarts r.entries ++ '\n' :: (r.closing ++ ['\n']))
  have hlimit : r.literal.start = (withEnds r.imports).length + r.gap.length := List.length_append
  have htext : r.text = withEnds r.imports ++ (r.gap ++
      (r.opening ++ withStarts r.entries ++ '\n' :: (r.closing ++ ['\n']))) := by
    rw [text_eq]
    simp only [List.append_assoc]
  rw [importBlock, hlimit, htext, hend]
  rcases List.eq_nil_or_concat' r.imports with hnil | ⟨front, i, hlast⟩
  · rw [hnil]
    rfl
  · have hempty : r.imports.isEmpty = false := by
      rw [hlast]
      simp
    have hnl : (withEnds r.imports).getLast? = some '\n' := by
      rw [hlast, withEnds_append]
      simp [withEnds]
    rw [hempty, if_neg (by decide), if_neg (by decide)]
    simp only [List.take_left, hnl, if_true]

/-- A patch leaves the text of the registry with one more entry. -/
theorem applyPatch_eq (h : r.Sound parts) (hparts : anchor.parts = some parts)
    (hd : IsDeclaration mark parts) {fragment : List Char} (hanchor : anchor ≠ .fileEnd)
    (line : List Char) :
    applyPatch r.text anchor fragment (some line) = some (r.add fragment line).text := by
  obtain ⟨hcut, hcomma⟩ := cut_withStarts h.entries
  have hl := h.literal_eq hparts hd
  have hlocate := locate_eq hparts hd hl rfl hcut
  have hstart := declarationStart_eq hparts hd hl
  have hindex : r.literal.before.length + (withStarts r.entries).length =
      (withEnds r.imports).length + (r.gap ++ (r.opening ++ withStarts r.entries)).length := by
    simp only [literal, List.length_append]
    omega
  rw [hcomma, hindex] at hlocate
  rw [applyPatch_import hlocate hstart, h.importBlock_eq, entryBlock, if_neg hanchor]
  simp only [Bool.false_eq_true, if_false, List.nil_append]
  have hgap : (if r.imports.isEmpty then ['\n'] else []) ++ r.gap = (r.add fragment line).gap := by
    have hmore : (r.add fragment line).imports.isEmpty = false := by simp [Registry.add]
    rw [gap, gap, hmore]
    cases r.imports.isEmpty <;> rfl
  have himports : withEnds (r.add fragment line).imports = withEnds r.imports ++ (line ++ ['\n']) := by
    rw [Registry.add, withEnds_append]
    simp [withEnds]
  have hentries : withStarts (r.add fragment line).entries =
      withStarts r.entries ++ '\n' :: fragment := by
    rw [Registry.add, withStarts, List.flatMap_append, ← withStarts]
    simp
  rw [text_eq, insertBoth_append, text_eq, himports, hentries, ← hgap]
  simp only [Registry.add, List.append_assoc, List.cons_append, List.nil_append]

end Sound

end Registry

end Patch

end AppScaffold.Script
