import AppScaffold.Proofs.Script.ImportBlock
import AppScaffold.Proofs.Script.ImportLine
import Mathlib.Data.List.Basic
import Mathlib.Data.List.TakeWhile
import Mathlib.Tactic.Common

/-!
# Import lines at the top of a script

Import lines that stand one below the other are found one by one, and the search for the last import
that begins before some place ends behind the last of them. What is asked of a line for this is that it
is one line, that no declaration begins in its code, and that it leaves no string and no comment open.
-/

namespace AppScaffold.Script

/-- An import line that holds one line and leaves no string open. -/
structure IsWholeImport (line : List Char) : Prop where
  /-- It is spelled as an import line. -/
  shape : IsImportLine line
  /-- There is no line end in it. -/
  single : '\n' ∉ line
  /-- The module is closed again. -/
  code : modeAfter none .code line = .code

/-- What an import line binds and where from can be spelled in one line, without quotes and
backslashes in the module. -/
theorem isWholeImport_of_spelled {names module : List Char}
    (hnames : ∀ c ∈ names, isBindingCharacter c = true ∧ c ≠ '\n')
    (hmodule : ∀ c ∈ module, isQuote c = false ∧ c ≠ '\\' ∧ c ≠ '\n') :
    IsWholeImport (("import ".toList ++ names ++ " from ".toList) ++
      '\x27' :: (module ++ '\x27' :: [';'])) := by
  refine ⟨⟨names, module, rfl, fun c hc => (hnames c hc).1, fun c hc => (hmodule c hc).1⟩, ?_, ?_⟩
  · simp only [List.mem_append, List.mem_cons, List.not_mem_nil, or_false, not_or]
    refine ⟨⟨⟨by decide, fun h => (hnames _ h).2 rfl⟩, by decide⟩, by decide,
      fun h => (hmodule _ h).2.2 rfl, by decide, by decide⟩
  · have hplain := fun c hc => (IsQuotedImport.plain (fun c hc => (hnames c hc).1) c hc).1
    have hquoted : ∀ (cs : List Char) (next : Option Char),
        (∀ c ∈ cs, isQuote c = false ∧ c ≠ '\\' ∧ c ≠ '\n') →
          modeAfter next (.quote '\x27') cs = .quote '\x27' := by
      intro cs next hcs
      induction cs with
      | nil => rfl
      | cons c cs ih =>
        obtain ⟨hquote, hback, -⟩ := hcs c List.mem_cons_self
        have hmark : c ≠ '\x27' := by
          rintro rfl
          exact absurd hquote (by decide)
        have hstep : ∀ next, ((Mode.quote '\x27').step c next).2 = .quote '\x27' := by
          intro next
          rw [Mode.step, if_neg hback, if_neg hmark]
        rw [modeAfter, hstep]
        exact ih fun d hd => hcs d (List.mem_cons_of_mem _ hd)
    rw [modeAfter_append, (read_plain hplain _).2, modeAfter, step_quote (by decide),
      modeAfter_append, hquoted _ _ hmodule]
    decide

/-- Lines, each with its line end. -/
def withEnds (lines : List (List Char)) : List Char := lines.flatMap (· ++ ['\n'])

/-- The characters of a stretch that was found are passed over. -/
theorem spans_skip (fit : Option Char → List Char → Option (List Char)) (index : Nat)
    (before : Option Char) (m rest : List Char) :
    spans fit index m.length before (m ++ rest) =
      spans fit (index + m.length) 0 (m.getLast?.or before) rest := by
  induction m generalizing index before with
  | nil => rfl
  | cons c m ih =>
    rw [List.cons_append, List.length_cons, spans, if_neg (Nat.succ_ne_zero _), Nat.add_sub_cancel, ih,
      Nat.add_assoc, Nat.add_comm 1, List.getLast?_cons]
    cases m.getLast? <;> rfl

/-- The search finds what fits at its start and goes on behind it. -/
theorem spans_of_fit {fit : Option Char → List Char → Option (List Char)} {before : Option Char}
    {m rest : List Char} (hm : m ≠ []) (hfit : fit before (m ++ rest) = some rest) (index : Nat) :
    spans fit index 0 before (m ++ rest) =
      ⟨index, index + m.length⟩ :: spans fit (index + m.length) 0 m.getLast? rest := by
  cases m with
  | nil => exact absurd rfl hm
  | cons c m =>
    have hsize : (m ++ rest).length + 1 - rest.length = m.length + 1 := by
      rw [List.length_append]
      omega
    rw [List.cons_append] at hfit ⊢
    rw [spans, if_pos rfl, hfit]
    simp only [hsize, Nat.add_sub_cancel, spans_skip, List.length_cons, List.getLast?_cons]
    rw [Nat.add_assoc, Nat.add_comm 1]
    cases m.getLast? <;> rfl

/-- What is dropped from the front of a text ends before a character that is kept. -/
theorem dropWhile_append_cons {p : Char → Bool} {c : Char} (hc : p c = false) (y t : List Char) :
    (y ++ c :: t).dropWhile p = y.dropWhile p ++ c :: t := by
  induction y with
  | nil => rw [List.nil_append, List.dropWhile_cons_of_neg (by simp [hc]), List.dropWhile_nil,
      List.nil_append]
  | cons d y ih =>
    rw [List.cons_append, List.dropWhile_cons, List.dropWhile_cons, ih]
    split_ifs <;> rfl

/-- A line does not end before a quote. -/
theorem afterLineEnd_quote {y : List Char} (hy : '\n' ∉ y) (t : List Char) :
    afterLineEnd (y ++ '\x27' :: t) = none := by
  rw [afterLineEnd.eq_def]
  split
  · next heq => simp at heq
  · next heq =>
    cases y with
    | nil => cases heq
    | cons c y => simp_all
  · next heq =>
    rcases y with _ | ⟨c, _ | ⟨d, y⟩⟩
    · cases heq
    · cases (List.cons.inj (List.cons.inj heq).2).1
    · simp_all
  · rfl

/-- A statement does not end before a quote on its line. -/
theorem afterStatementEnd_quote {y : List Char} (hy : '\n' ∉ y) (t : List Char) :
    afterStatementEnd (y ++ '\x27' :: t) = none := by
  have hdrop : ∀ z : List Char, '\n' ∉ z → '\n' ∉ z.dropWhile isInlineBlank := fun z hz hmem =>
    hz ((List.dropWhile_sublist _).mem hmem)
  rw [afterStatementEnd, dropWhile_append_cons (by decide)]
  split
  · next cs heq =>
    cases hy' : y.dropWhile isInlineBlank with
    | nil =>
      rw [hy'] at heq
      cases (List.cons.inj heq).1
    | cons c z =>
      have hz := hdrop y hy
      rw [hy'] at heq hz
      obtain rfl : z ++ '\x27' :: t = cs := (List.cons.inj heq).2
      rw [dropWhile_append_cons (by decide)]
      exact afterLineEnd_quote (hdrop z fun hmem => hz (List.mem_cons_of_mem _ hmem)) t
  · exact afterLineEnd_quote (hdrop y hy) t

/-- A quoted text goes on up to its quote or to the end of its line. -/
theorem afterQuoted_append {mark : Char} {x : List Char} (hmark : mark ∉ x) (hline : '\n' ∉ x)
    (cs : List Char) : afterQuoted mark (x ++ cs) = afterQuoted mark cs := by
  have hdrop : (x ++ cs).dropWhile (fun c => c != mark && c != '\n') =
      cs.dropWhile (fun c => c != mark && c != '\n') := by
    refine List.dropWhile_append_of_pos fun c hc => ?_
    have hne : c ≠ mark := fun h => hmark (h ▸ hc)
    have hnl : c ≠ '\n' := fun h => hline (h ▸ hc)
    simp [hne, hnl]
  rw [afterQuoted, hdrop, afterQuoted]

/-- A quoted text ends with its quote. -/
theorem afterQuoted_mark (mark : Char) (cs : List Char) :
    afterQuoted mark (mark :: cs) = afterStatementEnd cs := by
  rw [afterQuoted, List.dropWhile_cons_of_neg (by simp)]
  exact if_pos rfl

/-- A line ends with its last quote and a semicolon: whichever quoted text of it is the last, nothing but
the later lines is left, and the text in single quotes that begins behind all others of them is. -/
theorem afterQuoted_line {mark : Char} (hmark : mark ≠ '\n' ∧ mark ≠ ';') {z : List Char}
    (hz : '\n' ∉ z) (rest : List Char) :
    afterQuoted mark (z ++ '\x27' :: ';' :: '\n' :: rest) =
      if mark = '\x27' ∧ mark ∉ z then some rest else none := by
  by_cases hmem : mark ∈ z
  · obtain ⟨x, y, rfl, hx⟩ := List.eq_append_cons_of_mem hmem
    have hline : '\n' ∉ x := fun h => hz (List.mem_append_left _ h)
    have hline' : '\n' ∉ y := fun h => hz (List.mem_append_right _ (List.mem_cons_of_mem _ h))
    rw [List.append_assoc, List.cons_append, afterQuoted_append hx hline, afterQuoted_mark,
      afterStatementEnd_quote hline', if_neg fun h => h.2 hmem]
  · rw [afterQuoted_append hmem hz]
    by_cases hquote : mark = '\x27'
    · rw [hquote, afterQuoted_mark, if_pos ⟨rfl, hquote ▸ hmem⟩]
      rfl
    · have hend : mark ∉ ['\x27', ';'] := by simp [hquote, hmark.2]
      have hover : afterQuoted mark (['\x27', ';'] ++ '\n' :: rest) = none := by
        rw [afterQuoted_append hend (by decide), afterQuoted,
          List.dropWhile_cons_of_neg (by simp)]
        exact if_neg hmark.1.symm
      rw [if_neg fun h => hquote h.1]
      exact hover

/-- A module in single quotes that ends its line is found, whatever quotes are in it. -/
theorem afterModule_line {z : List Char} (hquote : '\x27' ∈ z) (hz : '\n' ∉ z) (rest : List Char) :
    afterModule (z ++ '\x27' :: ';' :: '\n' :: rest) = some rest := by
  induction z with
  | nil => cases hquote
  | cons c z ih =>
    have hz' : '\n' ∉ z := fun h => hz (List.mem_cons_of_mem _ h)
    rw [List.cons_append, afterModule]
    by_cases hmem : '\x27' ∈ z
    · -- a text that begins here ends before the last quote
      split
      · next rest' h =>
        split_ifs at h with hc
        have hmark : c ≠ '\n' ∧ c ≠ ';' := by
          rw [Bool.or_eq_true, decide_eq_true_eq, decide_eq_true_eq] at hc
          rcases hc with rfl | rfl <;> decide
        rw [afterQuoted_line hmark hz'] at h
        split_ifs at h with hlast
        exact absurd hmem (hlast.1 ▸ hlast.2)
      · exact ih hmem hz'
    · obtain rfl : c = '\x27' := ((List.mem_cons.mp hquote).resolve_right hmem).symm
      rw [if_pos (by decide), afterQuoted_line (by decide) hz', if_pos ⟨rfl, hmem⟩]

/-- The search for the module passes over text without quotes. -/
theorem afterModule_append {words : List Char} (hwords : ∀ c ∈ words, isQuote c = false)
    (rest : List Char) : afterModule (words ++ rest) = afterModule rest := by
  induction words with
  | nil => rfl
  | cons c words ih =>
    have hc : ¬(decide (c = '\x27') || decide (c = '\x22')) = true := by
      have hquote := hwords c List.mem_cons_self
      rw [Bool.or_eq_true, decide_eq_true_eq, decide_eq_true_eq]
      rintro (rfl | rfl)
      · exact absurd hquote (by decide)
      · exact absurd hquote (by decide)
    rw [List.cons_append, afterModule, if_neg hc]
    exact ih fun d hd => hwords d (List.mem_cons_of_mem _ hd)

/-- An import line is found up to the end of the line. -/
theorem IsQuotedImport.afterImport_eq {line : List Char} (h : IsQuotedImport line)
    (hline : '\n' ∉ line) {before : Option Char} (hbefore : before = none ∨ before = some '\n')
    (rest : List Char) : afterImport before (line ++ '\n' :: rest) = some rest := by
  obtain ⟨names, module, rfl, hnames⟩ := h
  have hwords : ∀ c ∈ [' '] ++ names ++ " from ".toList, isQuote c = false := by
    intro c hc
    have hc' : c ∈ "import ".toList ++ names ++ " from ".toList := by
      simp only [List.mem_append] at hc ⊢
      refine hc.imp_left fun hc => hc.imp_left fun hc => ?_
      rw [List.mem_singleton.mp hc]
      decide
    have hplain := (IsQuotedImport.plain hnames c hc').1
    rw [isPlain, Bool.and_eq_true, Bool.not_eq_true'] at hplain
    exact hplain.1
  have hsplit : ("import ".toList ++ names ++ " from ".toList) ++
      '\x27' :: (module ++ '\x27' :: [';']) ++ '\n' :: rest =
        "import".toList ++ (([' '] ++ names ++ " from ".toList) ++
          ('\x27' :: module ++ '\x27' :: ';' :: '\n' :: rest)) := by
    simp
  have hmodule : '\n' ∉ '\x27' :: module := by
    rintro hmem
    rcases List.mem_cons.mp hmem with heq | hmem
    · cases heq
    · exact hline (List.mem_append_right _ (List.mem_cons_of_mem _ (List.mem_append_left _ hmem)))
  have hstart : (decide (before = none) || decide (before = some '\n')) = true := by
    rwa [Bool.or_eq_true, decide_eq_true_eq, decide_eq_true_eq]
  have hhead : (([' '] ++ names ++ " from ".toList ++
      ('\x27' :: module ++ '\x27' :: ';' :: '\n' :: rest)).head?.any Text.isWordCharacter) = false := by
    change Text.isWordCharacter ' ' = false
    decide
  rw [hsplit, afterImport, if_pos hstart, afterText_eq_some_iff.mpr rfl]
  simp only [hhead, Bool.false_eq_true, if_false]
  rw [afterModule_append hwords, afterModule_line List.mem_cons_self hmodule]

/-- The line and its end leave the reader in code. -/
def IsSteady (line : List Char) : Prop := modeAfter none .code (line ++ ['\n']) = .code

instance : DecidablePred IsSteady := fun _ => inferInstanceAs (Decidable (_ = _))

/-- An import line that holds one line, and that a search for the declaration passes over. -/
structure Passes (parts : List Part) (line : List Char) : Prop where
  /-- It is spelled as an import from a quoted module. -/
  shape : IsQuotedImport line
  /-- There is no line end in it. -/
  single : '\n' ∉ line
  /-- It leaves no string and no comment open. -/
  steady : IsSteady line
  /-- No declaration begins in it that is in code. -/
  quiet : findDeclaration (line ++ ['\n']) parts = none

/-- A line end is settled. -/
theorem settled_newline : Settled ['\n'] :=
  settled_of_modeAfter (show modeAfter none .code ['\n'] = .code by decide) (by decide)

/-- A line that leaves the reader in code is settled together with its end. -/
theorem IsSteady.settled {line : List Char} (h : IsSteady line) : Settled (line ++ ['\n']) := by
  refine settled_of_modeAfter h ?_
  rw [List.getLast?_concat]
  decide

/-- Every search for a declaration passes over an import from a module without quotes. -/
theorem IsWholeImport.passes {line : List Char} (h : IsWholeImport line) {mark : Char}
    {parts : List Part} (hd : IsDeclaration mark parts) : Passes parts line where
  shape := h.shape.quoted
  single := h.single
  steady := (((h.shape.settled h.code).append settled_newline) none).2
  quiet := h.shape.findDeclaration_eq_none hd (by decide)

/-- Import lines below each other are found one by one; the last one ends where they end. -/
theorem spans_withEnds {parts : List Part} {imports : List (List Char)}
    (h : ∀ i ∈ imports, Passes parts i) {before : Option Char}
    (hbefore : before = none ∨ before = some '\n') (index : Nat) (rest : List Char) :
    ∃ xs before', spans afterImport index 0 before (withEnds imports ++ rest) =
        xs ++ spans afterImport (index + (withEnds imports).length) 0 before' rest ∧
      (∀ s ∈ xs, s.start < index + (withEnds imports).length) ∧
      xs.getLast?.map Span.stop =
        if imports.isEmpty then none else some (index + (withEnds imports).length) := by
  induction imports generalizing before index with
  | nil => exact ⟨[], before, rfl, by simp, rfl⟩
  | cons i imports ih =>
    have hi := h i List.mem_cons_self
    have hsplit : withEnds (i :: imports) ++ rest = (i ++ ['\n']) ++ (withEnds imports ++ rest) := by
      simp [withEnds]
    have hfit : afterImport before ((i ++ ['\n']) ++ (withEnds imports ++ rest)) =
        some (withEnds imports ++ rest) := by
      rw [List.append_assoc]
      exact hi.shape.afterImport_eq hi.single hbefore _
    have hlength : index + (withEnds (i :: imports)).length =
        index + (i ++ ['\n']).length + (withEnds imports).length := by
      rw [withEnds, List.flatMap_cons, List.length_append, withEnds]
      omega
    obtain ⟨xs, before', hspans, hxs, hlast⟩ := ih
      (fun j hj => h j (List.mem_cons_of_mem _ hj)) (.inr rfl) (index + (i ++ ['\n']).length)
    rw [hsplit, spans_of_fit (by simp) hfit, List.getLast?_concat, hspans, hlength]
    refine ⟨_ :: xs, before', rfl, ?_, ?_⟩
    · intro s hs
      rcases List.mem_cons.mp hs with rfl | hs
      · simp only [List.length_append, List.length_singleton]
        omega
      · exact hxs s hs
    · cases imports with
      | nil =>
        have hnone : xs = [] := by
          rwa [List.isEmpty_nil, if_pos rfl, Option.map_eq_none_iff, List.getLast?_eq_none_iff] at hlast
        rw [hnone]
        rfl
      | cons j imports =>
        rw [List.isEmpty_cons, if_neg (by decide)] at hlast ⊢
        rw [List.getLast?_cons]
        cases hx : xs.getLast? with
        | none =>
          rw [hx] at hlast
          cases hlast
        | some s =>
          rw [hx] at hlast
          exact hlast

/-- The block of imports at the top of a script ends behind the last line, whatever imports begin
behind the limit. -/
theorem importBlockEnd_withEnds {parts : List Part} {imports : List (List Char)}
    (h : ∀ i ∈ imports, Passes parts i) {gap : List Char} (hgap : gap = [] ∨ gap = ['\n'])
    (rest : List Char) :
    importBlockEnd (withEnds imports ++ (gap ++ rest)) ((withEnds imports).length + gap.length) =
      if imports.isEmpty then none else some (withEnds imports).length := by
  obtain ⟨xs, before, hspans, hxs, hlast⟩ := spans_withEnds h (.inl rfl) 0 (gap ++ rest)
  rw [Nat.zero_add] at hspans hxs hlast
  obtain ⟨before', hbehind⟩ : ∃ before', spans afterImport (withEnds imports).length 0 before
      (gap ++ rest) = spans afterImport ((withEnds imports).length + gap.length) 0 before' rest := by
    rcases hgap with rfl | rfl
    · exact ⟨before, rfl⟩
    · refine ⟨some '\n', ?_⟩
      have hno : afterImport before ('\n' :: rest) = none := by
        rw [afterImport]
        split_ifs <;> rfl
      rw [List.singleton_append, spans, if_pos rfl, hno]
      rfl
  have hnone : (spans afterImport ((withEnds imports).length + gap.length) 0 before' rest).takeWhile
      (fun span => span.start < (withEnds imports).length + gap.length) = [] := by
    rw [List.takeWhile_eq_nil_iff]
    intro hpos hlt
    obtain ⟨a, b, r, -, -, -, hstart, -⟩ := mem_spans (List.get_mem _ ⟨0, hpos⟩)
    rw [decide_eq_true_eq, hstart] at hlt
    omega
  have hall : ∀ s ∈ xs, decide (s.start < (withEnds imports).length + gap.length) = true := by
    intro s hs
    have hlt := hxs s hs
    rw [decide_eq_true_eq]
    omega
  rw [importBlockEnd, importSpans, hspans, hbehind, List.takeWhile_append_of_pos hall, hnone,
    List.append_nil, hlast]

/-- In import lines no declaration begins, none goes over their end, and what follows them is read
from code. -/
theorem withEnds_quiet {mark : Char} {parts : List Part} (hd : IsDeclaration mark parts)
    {imports : List (List Char)} (h : ∀ i ∈ imports, Passes parts i) :
    Sealed parts (withEnds imports) ∧ Settled (withEnds imports) ∧
      findDeclaration (withEnds imports) parts = none := by
  induction imports with
  | nil => exact ⟨sealed_nil parts, fun _ => ⟨rfl, rfl⟩, rfl⟩
  | cons i imports ih =>
    have hi := h i List.mem_cons_self
    obtain ⟨hsealed, hsettled, hnone⟩ := ih fun j hj => h j (List.mem_cons_of_mem _ hj)
    have hline : Sealed parts (i ++ ['\n']) := hi.shape.sealed_append hd (by decide)
    have hread : Settled (i ++ ['\n']) := hi.steady.settled
    have hsplit : withEnds (i :: imports) = (i ++ ['\n']) ++ withEnds imports := rfl
    rw [hsplit]
    refine ⟨hline.append hsealed, hread.append hsettled, ?_⟩
    rw [findDeclaration_append hline hread, hi.quiet, hnone]
    rfl

end AppScaffold.Script
