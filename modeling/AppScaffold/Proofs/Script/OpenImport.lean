import AppScaffold.Proofs.Script.Registry

/-!
# Import lines that leave a string open

Strings and block comments go over the ends of lines. If the specifier of an import line leaves one
open, what follows is read as part of it up to its end, and a declaration that follows is not found any
more as long as nothing in front of its equals sign closes what is open. A word at the end of the
specifier opens and closes nothing, so that it makes no difference which word it is.
-/

namespace AppScaffold.Script

namespace Mode

/-- The reader is in a string or in a block comment. -/
def isInside : Mode → Bool
  | .quote mark | .escape mark => isQuote mark
  | .block => true
  | .code | .line | .blockOpen | .blockClose => false

/-- Strings are in quotes. -/
def IsMarked : Mode → Prop
  | .quote mark | .escape mark => isQuote mark = true
  | .code | .line | .blockOpen | .block | .blockClose => True

/-- Only quotes open strings. -/
theorem IsMarked.step {mode : Mode} (h : mode.IsMarked) (c : Char) (next : Option Char) :
    (mode.step c next).2.IsMarked := by
  cases mode with
  | code =>
    rw [Mode.step]
    split_ifs with _ _ hquote
    · trivial
    · trivial
    · exact hquote
    · trivial
  | quote mark =>
    rw [Mode.step]
    split_ifs
    · exact h
    · trivial
    · exact h
  | escape mark => exact h
  | line | block =>
    simp only [Mode.step]
    split_ifs <;> trivial
  | blockOpen | blockClose => trivial

/-- Behind the end of a line the reader is in code, in a string or in a block comment. -/
theorem IsMarked.step_newline {mode : Mode} (h : mode.IsMarked) (next : Option Char) :
    (mode.step '\n' next).2 = .code ∨ (mode.step '\n' next).2.isInside = true := by
  cases mode with
  | code | line | blockClose => exact .inl rfl
  | block | blockOpen => exact .inr rfl
  | escape mark => exact .inr h
  | quote mark =>
    have hmark : '\n' ≠ mark := by
      rintro rfl
      cases h
    rw [Mode.step, if_neg (by decide), if_neg hmark]
    exact .inr h

/-- Characters that are no quotes and no stars close neither a string nor a block comment. -/
theorem isInside_step {mode : Mode} (h : mode.isInside = true) {c : Char}
    (hc : isQuote c = false ∧ c ≠ '*') (next : Option Char) :
    (mode.step c next).2.isInside = true := by
  cases mode with
  | quote mark =>
    have hmark : c ≠ mark := by
      rintro rfl
      exact absurd (hc.1.symm.trans h) (by decide)
    rw [Mode.step, if_neg hmark]
    split_ifs
    · exact h
    · exact h
  | block =>
    rw [Mode.step, if_neg fun hstar => hc.2 hstar.1]
    rfl
  | escape mark => exact h
  | code | line | blockOpen | blockClose => cases h

end Mode

/-- From code the reader comes only to strings in quotes. -/
theorem isMarked_modeAfter {mode : Mode} (h : mode.IsMarked) (next : Option Char) (cs : List Char) :
    (modeAfter next mode cs).IsMarked := by
  induction cs generalizing mode with
  | nil => exact h
  | cons c cs ih => exact ih (h.step c _)

/-- Behind a line that is not steady the reader is in a string or in a block comment. -/
theorem isInside_of_not_isSteady {line : List Char} (h : ¬IsSteady line) :
    (modeAfter none .code (line ++ ['\n'])).isInside = true := by
  have hcode : Mode.code.IsMarked := trivial
  have hmarked := isMarked_modeAfter hcode (some '\n') line
  rw [IsSteady, (read_concat ..).2] at h
  rw [(read_concat ..).2]
  exact (hmarked.step_newline none).resolve_left h

/-- What is open stays open where there are no quotes and no stars. -/
theorem isInside_modeAfter {mode : Mode} (h : mode.isInside = true) {cs : List Char}
    (hcs : ∀ c ∈ cs, isQuote c = false ∧ c ≠ '*') (next : Option Char) :
    (modeAfter next mode cs).isInside = true := by
  induction cs generalizing mode with
  | nil => exact h
  | cons c cs ih =>
    obtain ⟨hc, hrest⟩ := List.forall_mem_cons.mp hcs
    exact ih (Mode.isInside_step h hc _) hrest

/-- A character of a word: it opens and closes nothing, and does not stand for another one. -/
def isWordly (c : Char) : Bool := isPlain c && c != '*' && c != '\\' && c != '\n'

/-- Where the reader stands behind a word. -/
def Mode.afterWord : Mode → Mode
  | .quote mark | .escape mark => .quote mark
  | .blockOpen | .block => .block
  | .code | .blockClose => .code
  | .line => .line

/-- Every character of a word leads to where the word leads. -/
theorem Mode.IsMarked.step_word {mode : Mode} (h : mode.IsMarked) {c : Char} (hc : isWordly c = true)
    (next : Option Char) : (mode.step c next).2 = mode.afterWord := by
  simp only [isWordly, isPlain, Bool.and_eq_true, Bool.not_eq_true', bne_iff_ne] at hc
  obtain ⟨⟨⟨⟨hquote, hslash⟩, hstar⟩, hback⟩, hline⟩ := hc
  cases mode with
  | code => simp [Mode.step, afterWord, hslash, hquote]
  | line => simp [Mode.step, afterWord, hline]
  | block => simp [Mode.step, afterWord, hstar]
  | quote mark =>
    have hmark : c ≠ mark := by
      rintro rfl
      exact absurd (hquote.symm.trans h) (by decide)
    simp [Mode.step, afterWord, hback, hmark]
  | blockOpen | blockClose | escape => rfl

/-- All words lead to the same from where the reader stands. -/
theorem modeAfter_word {mode : Mode} (h : mode.IsMarked) {word : List Char} (hne : word ≠ [])
    (hword : ∀ c ∈ word, isWordly c = true) (next : Option Char) :
    modeAfter next mode word = mode.afterWord := by
  have hagain : ∀ mode : Mode, mode.afterWord.afterWord = mode.afterWord := by
    intro mode
    cases mode <;> rfl
  induction word generalizing mode with
  | nil => exact absurd rfl hne
  | cons c word ih =>
    obtain ⟨hc, hrest⟩ := List.forall_mem_cons.mp hword
    rw [modeAfter, h.step_word hc]
    cases word with
    | nil => rfl
    | cons d word =>
      have hmarked := h.step c none
      rw [h.step_word hc] at hmarked
      rw [ih hmarked (List.cons_ne_nil _ _) hrest, hagain]

/-- Behind a slash and a word the reader stands where any other word would have led. -/
theorem modeAfter_slash_word {mode : Mode} (h : mode.IsMarked) {word : List Char} (hne : word ≠ [])
    (hword : ∀ c ∈ word, isWordly c = true) (next : Option Char) (rest : List Char) :
    modeAfter next mode ('/' :: (word ++ rest)) =
      modeAfter next (mode.step '/' none).2.afterWord rest := by
  obtain ⟨c, word, rfl⟩ := List.exists_cons_of_ne_nil hne
  have hc := hword c List.mem_cons_self
  simp only [isWordly, isPlain, Bool.and_eq_true, Bool.not_eq_true', bne_iff_ne] at hc
  rw [modeAfter, List.cons_append, List.head?_cons, Option.some_or, step_unmarked hc.1.1.1.2 hc.1.1.2,
    ← List.cons_append, modeAfter_append, modeAfter_word (h.step '/' none) hne hword]

/-- Whether the import of a name from the directory of that name is steady does not depend on the name. -/
theorem isSteady_import_congr {name name' : List Char} (hne : name ≠ []) (hne' : name' ≠ [])
    (hname : ∀ c ∈ name, isWordly c = true ∧ c ≠ '=')
    (hname' : ∀ c ∈ name', isWordly c = true ∧ c ≠ '=') (module : List Char) :
    IsSteady (("import ".toList ++ name ++ " from ".toList) ++
        '\x27' :: ((module ++ '/' :: name) ++ '\x27' :: [';'])) ↔
      IsSteady (("import ".toList ++ name' ++ " from ".toList) ++
        '\x27' :: ((module ++ '/' :: name') ++ '\x27' :: [';'])) := by
  have hmode : ∀ word : List Char, word ≠ [] → (∀ c ∈ word, isWordly c = true ∧ c ≠ '=') →
      modeAfter none .code ((("import ".toList ++ word ++ " from ".toList) ++
        '\x27' :: ((module ++ '/' :: word) ++ '\x27' :: [';'])) ++ ['\n']) =
        modeAfter none ((modeAfter (some '/') (.quote '\x27') module).step '/' none).2.afterWord
          ['\x27', ';', '\n'] := by
    intro word hne hword
    have hbinding : ∀ c ∈ word, isBindingCharacter c = true := by
      intro c hc
      have hboth := hword c hc
      simp only [isWordly, Bool.and_eq_true] at hboth
      simp [isBindingCharacter, hboth]
    have hplain := fun c hc => (IsQuotedImport.plain hbinding c hc).1
    have hopens : (Mode.quote '\x27').IsMarked := rfl
    have hmarked := isMarked_modeAfter hopens (some '/') module
    generalize "import ".toList ++ word ++ " from ".toList = words at hplain ⊢
    rw [List.append_assoc, List.append_assoc, List.cons_append, modeAfter_append,
      (read_plain hplain _).2, modeAfter, step_quote (by decide), List.append_assoc,
      List.append_assoc, modeAfter_append, List.cons_append, List.head?_cons, Option.some_or,
      modeAfter_slash_word hmarked hne fun c hc => (hword c hc).1]
    rfl
  rw [IsSteady, IsSteady, hmode name hne hname, hmode name' hne' hname']

section Search

variable {mark : Char} {parts : List Part} {anchor : Anchor}

/-- Behind a piece that leaves something open no declaration is found up to an equals sign, if nothing
closes what is open, and none behind the last equals sign. -/
theorem findDeclaration_of_isInside (hd : IsDeclaration mark parts) {p a b : List Char}
    (hsealed : Sealed parts p) (hlast : ∀ c, p.getLast? = some c → c ≠ '/' ∧ c ≠ '*')
    (hnone : findDeclaration p parts = none)
    (hinside : (modeAfter none .code p).isInside = true)
    (ha : ∀ c ∈ a, isQuote c = false ∧ c ≠ '*') (hb : '=' ∉ b) :
    findDeclaration (p ++ (a ++ '=' :: b)) parts = none := by
  rw [Option.eq_none_iff_forall_ne_some]
  intro d hfind
  by_cases hstart : d.start < p.length
  · have hfound := findDeclaration_of_sealed hsealed hlast hfind hstart []
    rw [List.append_nil, hnone] at hfound
    cases hfound
  obtain ⟨x, m, r, hsplit, hm, rfl, hcode⟩ := hd.split hfind
  have hequals := (hd.signs hm).2
  have hlong : p.length ≤ x.length := Nat.le_of_not_lt hstart
  obtain ⟨y, rfl⟩ : p <+: x :=
    List.prefix_of_prefix_length_le (List.prefix_append ..) ⟨m ++ r, hsplit.symm⟩ hlong
  rw [List.append_assoc, List.append_cancel_left_eq] at hsplit
  rcases List.append_eq_append_iff.mp hsplit with ⟨z, rfl, hz⟩ | ⟨z, rfl, -⟩
  · -- the declaration begins at the equals sign or behind it
    cases z with
    | nil =>
      have hhead := congrArg List.head? hz
      rw [List.nil_append, List.head?_append, hd.starts m hm] at hhead
      cases hhead
    | cons c z =>
      refine hb ?_
      rw [(List.cons.inj hz).2]
      exact List.mem_append_right _ (List.mem_append_left _ hequals)
  · -- the declaration begins before it, where what was open still is
    rw [modeAfter_append, (read_unmarked_end hlast .code _ none).2] at hcode
    have hstays := isInside_modeAfter hinside (fun c hc => ha c (List.mem_append_left _ hc)) none
    rw [hcode] at hstays
    cases hstays

/-- Without a declaration there is no place for an entry. -/
theorem locate_eq_none (hparts : anchor.parts = some parts) {cs : List Char}
    (hnone : findDeclaration cs parts = none) : anchor.locate cs = none := by
  rw [Anchor.locate, hparts]
  simp only [hnone]
  rfl

/-- A registry whose declaration holds no quotes and no stars up to its only equals sign. -/
structure Registry.IsBare (r : Registry) : Prop where
  /-- The line of the declaration. -/
  opening : ∃ a b, r.opening = a ++ '=' :: b ∧ (∀ c ∈ a, isQuote c = false ∧ c ≠ '*') ∧ '=' ∉ b
  /-- The entries. -/
  entries : ∀ e ∈ r.entries, '=' ∉ e
  /-- The line that closes the literal. -/
  closing : '=' ∉ r.closing

/-- An import line that is not steady takes the declaration of its registry out of the code. -/
theorem Registry.Sound.locate_add_eq_none {r : Registry} (h : r.Sound parts)
    (hparts : anchor.parts = some parts) (hd : IsDeclaration mark parts) (hbare : r.IsBare)
    {fragment line : List Char} (hfragment : '=' ∉ fragment) (hline : IsQuotedImport line)
    (hquiet : findDeclaration (line ++ ['\n']) parts = none) (hopen : ¬IsSteady line) :
    anchor.locate (r.add fragment line).text = none := by
  obtain ⟨hsealed, hsettled, hnone⟩ := withEnds_quiet hd h.imports
  obtain ⟨a, b, hopening, ha, hb⟩ := hbare.opening
  have hsealed' : Sealed parts (line ++ ['\n']) := hline.sealed_append hd (by decide)
  have htext : (r.add fragment line).text = (withEnds r.imports ++ (line ++ ['\n'])) ++
      (('\n' :: a) ++ '=' :: (b ++ (withStarts (r.entries ++ [fragment]) ++
        '\n' :: (r.closing ++ ['\n'])))) := by
    have hgap : (r.add fragment line).gap = ['\n'] := by simp [Registry.add, gap]
    have himports : withEnds (r.add fragment line).imports =
        withEnds r.imports ++ (line ++ ['\n']) := by
      rw [Registry.add, withEnds_append]
      simp [withEnds]
    rw [text_eq, hgap, himports]
    simp only [Registry.add, hopening, List.append_assoc, List.cons_append, List.nil_append]
  refine locate_eq_none hparts ?_
  rw [htext]
  refine findDeclaration_of_isInside hd (hsealed.append hsealed') ?_ ?_ ?_ ?_ ?_
  · rw [← List.append_assoc, List.getLast?_concat]
    rintro c hc
    rw [← Option.some.inj hc]
    decide
  · rw [findDeclaration_append hsealed hsettled, hnone, hquiet]
    rfl
  · rw [modeAfter_append, (hsettled _).2]
    exact isInside_of_not_isSteady hopen
  · exact List.forall_mem_cons.mpr ⟨by decide, ha⟩
  · have hentries : '=' ∉ withStarts (r.entries ++ [fragment]) := by
      intro hmem
      obtain ⟨e, he, hmem⟩ := List.mem_flatMap.mp hmem
      have hmem' := (List.mem_cons.mp hmem).resolve_left (by decide)
      rcases List.mem_append.mp he with he | he
      · exact hbare.entries e he hmem'
      · exact hfragment (List.mem_singleton.mp he ▸ hmem')
    simp [hb, hentries, hbare.closing]

end Search

end AppScaffold.Script
