import AppScaffold.Proofs.Script.Declaration
import AppScaffold.Script.ImportLine
import Mathlib.Data.List.Basic
import Mathlib.Tactic.Common

/-!
# Import lines between other text

An import line stands in code when its beginning does, but for the quoted module in it. No
declaration begins in it that is in code, since a declaration has an equals sign and no quotes, and
none goes over its end.
-/

namespace AppScaffold.Script

/-- A character of what an import binds: no quote, no slash and no equals sign. -/
def isBindingCharacter (c : Char) : Bool := isPlain c && c != '='

/-- The line imports names, spelled without quotes, slashes and equals signs, from a module without
quotes. -/
def IsImportLine (line : List Char) : Prop :=
  ∃ names module, line = ("import ".toList ++ names ++ " from ".toList) ++
      '\x27' :: (module ++ '\x27' :: [';']) ∧
    (∀ c ∈ names, isBindingCharacter c = true) ∧ ∀ c ∈ module, isQuote c = false

/-- The name that an import line binds. -/
def Binding.name : Binding → String
  | .default name | .named name => name

/-- The line imports names, spelled in this way, from a module in single quotes, whatever is in them. -/
def IsQuotedImport (line : List Char) : Prop :=
  ∃ names module, line = ("import ".toList ++ names ++ " from ".toList) ++
      '\x27' :: (module ++ '\x27' :: [';']) ∧
    ∀ c ∈ names, isBindingCharacter c = true

/-- An import line imports from a module in quotes. -/
theorem IsImportLine.quoted {line : List Char} (h : IsImportLine line) : IsQuotedImport line := by
  obtain ⟨names, module, heq, hnames, -⟩ := h
  exact ⟨names, module, heq, hnames⟩

/-- Imports are rendered with the name that they bind, alone or in braces, and with their specifier. -/
theorem toList_render (i : ImportLine) (file : Path) :
    ∃ names, (names = i.binding.name.toList ∨
        names = "\x7b ".toList ++ (i.binding.name.toList ++ " \x7d".toList)) ∧
      (i.render file).toList = ("import ".toList ++ names ++ " from ".toList) ++
        '\x27' :: ((Path.moduleSpecifier file i.module).toList ++ '\x27' :: [';']) := by
  obtain ⟨binding, module⟩ := i
  cases binding with
  | default name =>
    refine ⟨name.toList, .inl rfl, ?_⟩
    simp [ImportLine.render, Skeleton.importDefault]
  | named name =>
    refine ⟨_, .inr rfl, ?_⟩
    simp [ImportLine.render, Skeleton.importNamed, Skeleton.importDefault, Skeleton.braced,
      Binding.name]

/-- What is said of the braces and of the name is said of what an import binds. -/
theorem forall_mem_names {P : Char → Prop} {i : ImportLine} {names : List Char}
    (hnames : names = i.binding.name.toList ∨
      names = "\x7b ".toList ++ (i.binding.name.toList ++ " \x7d".toList))
    (hname : ∀ c ∈ i.binding.name.toList, P c) (hbraces : ∀ c ∈ ['\x7b', ' ', '\x7d'], P c) :
    ∀ c ∈ names, P c := by
  have hopening : ∀ c ∈ "\x7b ".toList, c ∈ ['\x7b', ' ', '\x7d'] := by simp
  have hclosing : ∀ c ∈ " \x7d".toList, c ∈ ['\x7b', ' ', '\x7d'] := by simp
  rcases hnames with rfl | rfl
  · exact hname
  · rw [List.forall_mem_append, List.forall_mem_append]
    exact ⟨fun c hc => hbraces c (hopening c hc), hname, fun c hc => hbraces c (hclosing c hc)⟩

/-- Import lines are rendered in this way. -/
theorem isImportLine_render {i : ImportLine} {file : Path}
    (hname : ∀ c ∈ i.binding.name.toList, isBindingCharacter c = true)
    (hmodule : ∀ c ∈ (Path.moduleSpecifier file i.module).toList, isQuote c = false) :
    IsImportLine (i.render file).toList := by
  obtain ⟨names, hnames, heq⟩ := toList_render i file
  exact ⟨names, _, heq, forall_mem_names hnames hname (List.all_eq_true.mp (by decide)), hmodule⟩

/-- A quote in code opens a string. -/
theorem step_quote {mark : Char} (hmark : isQuote mark = true) (next : Option Char) :
    Mode.code.step mark next = (.quoteStart, .quote mark) := by
  have hslash : mark ≠ '/' := by
    rintro rfl
    cases hmark
  simp only [Mode.step, hslash, false_and, if_false, hmark, if_true]

/-- Without a quote the reader does not leave a string. -/
theorem modeAfter_quote {mark : Char} (hmark : isQuote mark = true) (next : Option Char)
    {cs : List Char} (hcs : ∀ c ∈ cs, isQuote c = false) {mode : Mode}
    (hmode : mode = .quote mark ∨ mode = .escape mark) :
    modeAfter next mode cs = .quote mark ∨ modeAfter next mode cs = .escape mark := by
  induction cs generalizing mode with
  | nil => exact hmode
  | cons c cs ih =>
    have hne : c ≠ mark := by
      rintro rfl
      rw [hcs c List.mem_cons_self] at hmark
      cases hmark
    refine ih (fun d hd => hcs d (List.mem_cons_of_mem _ hd)) ?_
    rcases hmode with rfl | rfl
    · rw [Mode.step, if_neg hne]
      split_ifs
      · exact .inr rfl
      · exact .inl rfl
    · exact .inl rfl

namespace IsQuotedImport

variable {line : List Char} {mark : Char} {parts : List Part}

/-- What an import line binds is spelled with the words around it without quotes, slashes and equals
signs. -/
theorem plain {names : List Char} (hnames : ∀ c ∈ names, isBindingCharacter c = true) :
    ∀ c ∈ "import ".toList ++ names ++ " from ".toList, isPlain c = true ∧ c ≠ '=' := by
  have hall : ∀ c ∈ "import ".toList ++ names ++ " from ".toList, isBindingCharacter c = true := by
    rw [List.forall_mem_append, List.forall_mem_append]
    exact ⟨⟨List.all_eq_true.mp (by decide), hnames⟩, List.all_eq_true.mp (by decide)⟩
  intro c hc
  simpa [isBindingCharacter] using hall c hc

/-- It begins with a small letter and ends with a semicolon. -/
theorem ends (h : IsQuotedImport line) : line.head? = some 'i' ∧ line.getLast? = some ';' := by
  obtain ⟨names, module, rfl, -⟩ := h
  refine ⟨rfl, ?_⟩
  rw [List.getLast?_append, List.getLast?_cons, List.getLast?_append]
  rfl

/-- No declaration goes over the end of an import line. -/
theorem sealed_append (h : IsQuotedImport line) (hd : IsDeclaration mark parts) {t : List Char}
    (ht : 'e' ∉ t) : Sealed parts (line ++ t) := by
  obtain ⟨names, module, rfl, -⟩ := h
  have hquote : '\x27' ≠ mark := by rcases hd.opens with rfl | rfl <;> decide
  have hsealed := hd.sealed_concat (c := '\x27') (by decide) hquote
    (("import ".toList ++ names ++ " from ".toList) ++ '\x27' :: module)
  have hrest := hsealed.append (hd.sealed_of_notMem (p := ';' :: t) (by simpa using ht))
  simpa using hrest

end IsQuotedImport

namespace IsImportLine

variable {line : List Char}

/-- An import line begins with a small letter and ends with a semicolon. -/
theorem ends (h : IsImportLine line) : line.head? = some 'i' ∧ line.getLast? = some ';' := h.quoted.ends

/-- An import line leaves no comment open. -/
theorem modeAfter_ne_line (h : IsImportLine line) (next : Option Char) :
    modeAfter next .code line ≠ .line := by
  obtain ⟨names, module, rfl, hnames, hmodule⟩ := h
  have hplain := fun c hc => (IsQuotedImport.plain hnames c hc).1
  have hquote := modeAfter_quote (show isQuote '\x27' = true by decide) (some '\x27') hmodule (.inl rfl)
  rw [modeAfter_append, (read_plain hplain _).2, modeAfter,
    step_quote (by decide), modeAfter_append, List.head?_cons, Option.some_or]
  rcases hquote with hquote | hquote <;> rw [hquote]
  · simp [modeAfter, Mode.step, isQuote]
  · simp [modeAfter, Mode.step]

variable {mark : Char} {parts : List Part}

/-- An import line that leaves no string open is settled. -/
theorem settled (h : IsImportLine line) (hcode : modeAfter none .code line = .code) :
    Settled line := by
  refine settled_of_modeAfter hcode ?_
  rw [h.ends.2]
  decide

/-- In an import line no declaration begins that is in code. -/
theorem findDeclaration_eq_none (h : IsImportLine line) (hd : IsDeclaration mark parts)
    {t : List Char} (ht : 'e' ∉ t) : findDeclaration (line ++ t) parts = none := by
  obtain ⟨names, module, rfl, hnames, hmodule⟩ := h
  have hwords := IsQuotedImport.plain hnames
  generalize "import ".toList ++ names ++ " from ".toList = words at hwords ⊢
  rw [Option.eq_none_iff_forall_ne_some]
  intro d hfind
  obtain ⟨a, m, r, hsplit, hm, -, hcode⟩ := hd.split hfind
  obtain ⟨hquote, hequals⟩ := hd.signs hm
  have he : 'e' ∈ m := List.mem_of_head? (hd.starts m hm)
  have hsplit' : words ++ '\x27' :: (module ++ '\x27' :: ';' :: t) = a ++ (m ++ r) := by
    simpa using hsplit
  rcases List.append_eq_append_iff.mp hsplit' with ⟨b, rfl, hb⟩ | ⟨b, rfl, hb⟩
  · cases b with
    | nil =>
      have hhead := congrArg List.head? hb
      rw [List.nil_append, List.head?_append, hd.starts m hm] at hhead
      cases hhead
    | cons c b =>
      obtain ⟨rfl, hbehind⟩ := List.cons.inj hb
      rcases List.append_eq_append_iff.mp hbehind with ⟨b', rfl, hb'⟩ | ⟨b', rfl, -⟩
      · -- behind the module there is no small letter
        have hmem : 'e' ∈ '\x27' :: ';' :: t := by
          rw [hb']
          exact List.mem_append_right _ (List.mem_append_left _ he)
        simp [ht] at hmem
      · -- in the module the reader is in a string
        have hb := fun c hc => hmodule c (List.mem_append_left b' hc)
        rw [modeAfter_append, (read_plain (fun c hc => (hwords c hc).1) _).2, modeAfter,
          step_quote (by decide)] at hcode
        have hquote := modeAfter_quote (show isQuote '\x27' = true by decide) none hb (.inl rfl)
        rcases hquote with hmode | hmode
        · rw [hmode] at hcode
          cases hcode
        · rw [hmode] at hcode
          cases hcode
  · -- among the words there is no equals sign
    have hmem := (prefix_of_notMem (hquote '\x27' (by decide)) hb.symm).subset hequals
    exact absurd rfl (hwords '=' (List.mem_append_right _ hmem)).2

end IsImportLine

end AppScaffold.Script
