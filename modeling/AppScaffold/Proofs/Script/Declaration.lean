import AppScaffold.Name
import AppScaffold.Proofs.Script.Matching
import AppScaffold.Proofs.Script.Reading
import AppScaffold.Script.Anchor
import Mathlib.Data.List.Find
import Mathlib.Tactic.Common

/-!
# Finding a declaration

A declaration is spelled with blanks, identifiers, an equals sign and brackets, so that it stands
wholly in code when its beginning does, and the bracket that opens its literal is the first of its
kind in it. The first declaration in code is therefore settled by the characters up to that bracket,
and pieces of code in which no declaration begins only move it.
-/

namespace AppScaffold.Script

/-- A character in front of the bracket that opens a literal: no quote, no slash, and no bracket that
could open the literal itself. -/
def isDeclarationCharacter (c : Char) : Bool := isPlain c && c != '[' && c != '\x7b'

/-- Declarations are spelled without quotes and slashes. -/
theorem isPlain_of_isDeclarationCharacter {c : Char} (h : isDeclarationCharacter c = true) :
    isPlain c = true := by
  simp only [isDeclarationCharacter, Bool.and_eq_true] at h
  exact h.1.1

/-- A class of characters without quotes, slashes and opening brackets may stand in a declaration. -/
theorem isDeclarationCharacter_of_class {p : Char → Bool}
    (hp : ['\x22', '\x27', '\x60', '/', '[', '\x7b'].any p = false) {c : Char}
    (hc : p c = true) : isDeclarationCharacter c = true := by
  have hne : ∀ d ∈ ['\x22', '\x27', '\x60', '/', '[', '\x7b'], c ≠ d := by
    rintro d hd rfl
    exact List.any_eq_false.mp hp c hd hc
  simp only [List.forall_mem_cons] at hne
  obtain ⟨hdouble, hsingle, hback, hslash, hsquare, hcurly, -⟩ := hne
  simp [isDeclarationCharacter, isPlain, isQuote, hdouble, hsingle, hback, hslash, hsquare, hcurly]

/-- Identifiers are spelled with the characters that may follow the first one. -/
theorem isIdentifierTail_of_mem {name : String} (h : Name.isIdentifier name = true) {c : Char}
    (hc : c ∈ name.toList) : Name.isIdentifierTail c = true := by
  rw [Name.isIdentifier] at h
  cases hn : name.toList with
  | nil => rw [hn] at hc; cases hc
  | cons d ds =>
    rw [hn, Name.isIdentifierChars, Bool.and_eq_true, List.all_eq_true] at h
    rw [hn] at hc
    rcases List.mem_cons.mp hc with rfl | hc
    · simp [Name.isIdentifierTail, Char.isAlphanum, h.1]
    · exact h.2 c hc

/-- A pattern for declarations whose literal is opened by `mark`. -/
structure IsDeclaration (mark : Char) (parts : List Part) : Prop where
  /-- The mark is a bracket that can open a literal. -/
  opens : mark = '[' ∨ mark = '\x7b'
  /-- The mark ends the declaration, and only characters of declarations stand before it. -/
  fits : ∀ m, Fits parts m →
    ∃ m', m = m' ++ [mark] ∧ (∀ c ∈ m', isDeclarationCharacter c = true) ∧ '=' ∈ m'
  /-- The declaration begins with the word `export`. -/
  starts : ∀ m, Fits parts m → m.head? = some 'e'

/-- The anchor is a literal whose names can stand in front of its bracket. -/
def Anchor.Named : Anchor → Prop
  | .arrayLiteral name => ∀ c ∈ name.toList, isDeclarationCharacter c = true
  | .mapCall name callee => ∀ c ∈ name.toList ++ callee.toList, isDeclarationCharacter c = true
  | .fileEnd => False

/-- Identifiers can stand in front of a bracket. -/
theorem isDeclarationCharacter_of_mem {name : String} (h : Name.isIdentifier name = true) :
    ∀ c ∈ name.toList, isDeclarationCharacter c = true :=
  fun _ hc => isDeclarationCharacter_of_class (by decide) (isIdentifierTail_of_mem h hc)

/-- The parts of a pattern are spelled one behind the other. -/
theorem fits_append {parts parts' : List Part} {m : List Char} :
    Fits (parts ++ parts') m ↔ ∃ a b, m = a ++ b ∧ Fits parts a ∧ Fits parts' b := by
  induction parts generalizing m with
  | nil => simp [Fits]
  | cons part parts ih =>
    simp only [List.cons_append, Fits, ih]
    constructor
    · rintro ⟨a, _, rfl, ha, b, c, rfl, hb, hc⟩
      exact ⟨a ++ b, c, by rw [List.append_assoc], ⟨a, b, rfl, ha, hb⟩, hc⟩
    · rintro ⟨_, c, rfl, ⟨a, b, rfl, ha, hb⟩, hc⟩
      exact ⟨a, b ++ c, by rw [List.append_assoc], ha, b, c, rfl, hb, hc⟩

/-- All texts of a pattern are spelled with the characters of its fixed texts and blanks. -/
theorem fits_all {P : Char → Prop} (hblank : ∀ c, Text.isBlank c = true → P c) {parts : List Part}
    (hparts : ∀ text, Part.exact text ∈ parts → ∀ c ∈ text, P c) {m : List Char}
    (h : Fits parts m) : ∀ c ∈ m, P c := by
  induction parts generalizing m with
  | nil =>
    rw [Fits] at h
    rw [h]
    exact fun c hc => absurd hc List.not_mem_nil
  | cons part parts ih =>
    obtain ⟨a, b, rfl, ha, hb⟩ := h
    intro c hc
    rcases List.mem_append.mp hc with hc | hc
    · cases part with
      | exact text => exact hparts text List.mem_cons_self c (ha ▸ hc)
      | blanks => exact hblank c (ha c hc)
      | gap => exact hblank c (ha.2 c hc)
    · exact ih (fun text ht => hparts text (List.mem_cons_of_mem _ ht)) hb c hc

/-- What stands in front of the value of a declaration. -/
theorem fits_declarationParts {name : String} {m : List Char}
    (h : Fits (Anchor.declarationParts name) m) : ∃ m', m = 'e' :: m' ∧ '=' ∈ m' := by
  obtain ⟨_, _, rfl, rfl, _, _, rfl, -, _, _, rfl, -, _, _, rfl, -, _, _, rfl, -, _, _, rfl, -,
    _, _, rfl, rfl, -⟩ := h
  refine ⟨_, rfl, ?_⟩
  simp

/-- A declaration up to its value, and the way from there to the bracket, make a pattern for
declarations. -/
theorem isDeclaration_of_parts {mark : Char} (hmark : mark = '[' ∨ mark = '\x7b') {name : String}
    (hname : ∀ c ∈ name.toList, isDeclarationCharacter c = true) {way : List Part}
    (hway : ∀ text, Part.exact text ∈ way → ∀ c ∈ text, isDeclarationCharacter c = true) :
    IsDeclaration mark (Anchor.declarationParts name ++ way ++ [.exact [mark]]) where
  opens := hmark
  fits := by
    intro m hm
    obtain ⟨m', t, rfl, hm', c, d, rfl, rfl, rfl⟩ := fits_append.mp hm
    refine ⟨m', by rw [List.append_nil], fits_all ?_ ?_ hm', ?_⟩
    · exact fun c hc => isDeclarationCharacter_of_class (by decide) hc
    · intro text htext
      rcases List.mem_append.mp htext with htext | htext
      · simp only [Anchor.declarationParts, List.mem_cons, List.not_mem_nil, or_false, reduceCtorEq,
          false_or, Part.exact.injEq] at htext
        rcases htext with rfl | rfl | rfl | rfl
        · exact List.all_eq_true.mp (by decide)
        · exact List.all_eq_true.mp (by decide)
        · exact hname
        · exact List.all_eq_true.mp (by decide)
      · exact hway text htext
    · obtain ⟨a, b, rfl, ha, -⟩ := fits_append.mp hm'
      obtain ⟨a', rfl, heq⟩ := fits_declarationParts ha
      exact List.mem_append_left _ (List.mem_cons_of_mem _ heq)
  starts := by
    intro m hm
    obtain ⟨a, b, rfl, ha, -⟩ := fits_append.mp hm
    obtain ⟨a, t, rfl, ha, -⟩ := fits_append.mp ha
    obtain ⟨a', rfl, -⟩ := fits_declarationParts ha
    rfl

/-- Anchors of literals look for declarations. -/
theorem Anchor.Named.exists_parts {anchor : Anchor} (h : anchor.Named) :
    ∃ mark parts, anchor.parts = some parts ∧ IsDeclaration mark parts := by
  cases anchor with
  | arrayLiteral name =>
    refine ⟨'[', _, rfl, ?_⟩
    have hway : ∀ text, Part.exact text ∈ ([] : List Part) →
        ∀ c ∈ text, isDeclarationCharacter c = true :=
      fun text ht => absurd ht List.not_mem_nil
    exact isDeclaration_of_parts (.inl rfl) h hway
  | mapCall name callee =>
    refine ⟨'\x7b', _, rfl, ?_⟩
    have hparts : Anchor.declarationParts name ++
        [.exact callee.toList, .blanks, .exact ['('], .blanks, .exact ['\x7b']] =
        Anchor.declarationParts name ++ [.exact callee.toList, .blanks, .exact ['('], .blanks] ++
          [.exact ['\x7b']] := by
      rw [List.append_assoc]
      rfl
    rw [hparts]
    rw [Anchor.Named, List.forall_mem_append] at h
    refine isDeclaration_of_parts (.inr rfl) h.1 fun text ht => ?_
    simp only [List.mem_cons, List.not_mem_nil, or_false, reduceCtorEq, false_or,
      Part.exact.injEq] at ht
    rcases ht with rfl | rfl
    · exact h.2
    · exact List.all_eq_true.mp (by decide)
  | fileEnd => exact h.elim

/-- A declaration found in a sealed piece is found there whatever follows the piece. -/
theorem findDeclaration_of_sealed {parts : List Part} {p q : List Char} (hp : Sealed parts p)
    (hlast : ∀ c, p.getLast? = some c → c ≠ '/' ∧ c ≠ '*') {d : Span}
    (h : findDeclaration (p ++ q) parts = some d) (hstart : d.start < p.length) (q' : List Char) :
    findDeclaration (p ++ q') parts = some d := by
  rw [findDeclaration, spans_append hp (Nat.zero_le _) 0 none none, List.find?_append] at h ⊢
  have hcongr : ∀ s ∈ spans (fun _ => afterParts parts) 0 0 none p,
      isCodeIndex (p ++ q') s.start = isCodeIndex (p ++ q) s.start := by
    intro s hs
    obtain ⟨a, b, -, rfl, hb, -, hs, -⟩ := mem_spans hs
    have hpos := List.length_pos_iff.mpr hb
    refine isCodeIndex_congr hlast ?_ q' q
    rw [hs, List.length_append]
    omega
  rw [List.find?_congr hcongr]
  cases hfirst : (spans (fun _ => afterParts parts) 0 0 none p).find?
      fun s => isCodeIndex (p ++ q) s.start with
  | some e =>
    rw [hfirst, Option.some_or] at h
    rw [h, Option.some_or]
  | none =>
    -- what is found behind the piece begins there
    rw [hfirst, Option.none_or] at h
    obtain ⟨a, -, -, -, -, -, hbehind, -⟩ := mem_spans (List.mem_of_find?_eq_some h)
    omega

/-- The stretch behind as many more characters. -/
def Span.shift (s : Span) (k : Nat) : Span := ⟨s.start + k, s.stop + k⟩

/-- A search that counts from a later place finds the same stretches, shifted. -/
theorem spans_shift (fit : Option Char → List Char → Option (List Char)) (k index skip : Nat)
    (before : Option Char) (cs : List Char) :
    spans fit (index + k) skip before cs = (spans fit index skip before cs).map (·.shift k) := by
  induction cs generalizing index skip before with
  | nil => rfl
  | cons c cs ih =>
    have hindex : index + k + 1 = index + 1 + k := by omega
    rw [spans, spans, hindex]
    split_ifs with hskip
    · cases fit before (c :: cs) with
      | none => exact ih ..
      | some rest =>
        simp only [ih, List.map_cons, Span.shift]
        congr 2
        omega
    · exact ih ..

/-- Behind a sealed and settled piece a declaration is found as in the rest alone, if there is none
in the piece. -/
theorem findDeclaration_append {parts : List Part} {p : List Char} (hsealed : Sealed parts p)
    (hp : Settled p) (q : List Char) :
    findDeclaration (p ++ q) parts =
      (findDeclaration p parts).or ((findDeclaration q parts).map (·.shift p.length)) := by
  have hleft : ∀ s ∈ spans (fun _ => afterParts parts) 0 0 none p,
      isCodeIndex (p ++ q) s.start = isCodeIndex p s.start := by
    intro s hs
    obtain ⟨a, b, -, rfl, hb, -, hstart, -⟩ := mem_spans hs
    have hpos := List.length_pos_iff.mpr hb
    refine hp.isCodeIndex_append_left q ?_
    rw [hstart, List.length_append]
    omega
  have hright : ∀ s ∈ spans (fun _ => afterParts parts) 0 0 none q,
      ((fun s => isCodeIndex (p ++ q) s.start) ∘ (·.shift p.length)) s = isCodeIndex q s.start :=
    fun s _ => hp.isCodeIndex_append_right q s.start
  rw [findDeclaration, spans_append hsealed (Nat.zero_le _) 0 none none, List.find?_append,
    List.find?_congr hleft, spans_shift, List.find?_map, List.find?_congr hright]
  rfl

/-- A declaration that is found in a script begins in it. -/
theorem start_lt_of_findDeclaration {cs : List Char} {parts : List Part} {d : Span}
    (h : findDeclaration cs parts = some d) : d.start < cs.length := by
  obtain ⟨a, b, -, rfl, hb, -, hstart, -⟩ := mem_spans (List.mem_of_find?_eq_some h)
  have hpos := List.length_pos_iff.mpr hb
  rw [hstart, List.length_append]
  omega

/-- A piece of code without a declaration, put in between pieces, moves the declaration behind it. -/
theorem findDeclaration_insert {parts : List Part} {p q r : List Char} (hp : Sealed parts p)
    (hp' : Settled p) (hq : Sealed parts q) (hq' : Settled q) (hnone : findDeclaration q parts = none)
    {d : Span} (h : findDeclaration (p ++ r) parts = some d) (hstart : p.length ≤ d.start) :
    findDeclaration (p ++ (q ++ r)) parts = some (d.shift q.length) := by
  rw [findDeclaration_append hp hp'] at h ⊢
  cases hbefore : findDeclaration p parts with
  | some e =>
    rw [hbefore, Option.some_or, Option.some.injEq] at h
    have hlt := start_lt_of_findDeclaration hbefore
    rw [h] at hlt
    omega
  | none =>
    rw [hbefore, Option.none_or] at h
    obtain ⟨e, he, rfl⟩ := Option.map_eq_some_iff.mp h
    rw [findDeclaration_append hq hq', hnone, he, Option.none_or, Option.none_or, Option.map_some,
      Option.map_some, Option.some.injEq]
    simp only [Span.shift, Nat.add_right_comm]

namespace IsDeclaration

variable {mark : Char} {parts : List Part}

/-- The bracket is the first of its kind in a declaration. -/
theorem delimited (hd : IsDeclaration mark parts) : Delimited mark parts := by
  intro m hm
  obtain ⟨m', rfl, hm', -⟩ := hd.fits m hm
  refine ⟨m', rfl, fun hmem => ?_⟩
  have hchar := hm' mark hmem
  rcases hd.opens with rfl | rfl
  · exact absurd hchar (by decide)
  · exact absurd hchar (by decide)

/-- The bracket is no first half of a two-character mark. -/
theorem unmarked (hd : IsDeclaration mark parts) : mark ≠ '/' ∧ mark ≠ '*' := by
  rcases hd.opens with rfl | rfl <;> decide

/-- A declaration has an equals sign and no quotes. -/
theorem signs (hd : IsDeclaration mark parts) {m : List Char} (hm : Fits parts m) :
    (∀ c, isQuote c = true → c ∉ m) ∧ '=' ∈ m := by
  obtain ⟨m', rfl, hm', hequals⟩ := hd.fits m hm
  refine ⟨fun c hc hmem => ?_, List.mem_append_left _ hequals⟩
  rcases List.mem_append.mp hmem with hmem | hmem
  · have hplain := isPlain_of_isDeclarationCharacter (hm' c hmem)
    rw [isPlain, hc] at hplain
    cases hplain
  · rw [List.mem_singleton] at hmem
    rcases hd.opens with rfl | rfl <;> subst hmem <;> cases hc

/-- A character with no place in declarations seals what it ends. -/
theorem sealed_concat (hd : IsDeclaration mark parts) {c : Char}
    (hc : isDeclarationCharacter c = false) (hmark : c ≠ mark) (p : List Char) :
    Sealed parts (p ++ [c]) := by
  refine sealed_of_foreign hd.delimited (fun m hm hmem => ?_) p
  obtain ⟨m', rfl, hm', -⟩ := hd.fits m hm
  rcases List.mem_append.mp hmem with hmem | hmem
  · rw [hm' c hmem] at hc
    cases hc
  · exact hmark (List.mem_singleton.mp hmem)

/-- Without the first letter of a declaration nothing is found. -/
theorem sealed_of_notMem (hd : IsDeclaration mark parts) {p : List Char} (hp : 'e' ∉ p) :
    Sealed parts p := by
  refine sealed_of_idle hd.delimited fun m hm => ?_
  cases m with
  | nil => cases hd.starts _ hm
  | cons c t =>
    obtain rfl : c = 'e' := Option.some.inj (hd.starts _ hm)
    exact ⟨'e', t, rfl, hp⟩

/-- The declaration that is found divides the script: code before it, its own text, and the rest. -/
theorem split (hd : IsDeclaration mark parts) {cs : List Char} {d : Span}
    (h : findDeclaration cs parts = some d) :
    ∃ a m r, cs = a ++ (m ++ r) ∧ Fits parts m ∧ d = ⟨a.length, a.length + m.length⟩ ∧
      modeAfter none .code a = .code := by
  obtain ⟨a, b, r, rfl, hb, hr, hstart, hstop⟩ := mem_spans (List.mem_of_find?_eq_some h)
  have hcode := List.find?_some h
  obtain ⟨m, hm, rfl⟩ := fits_of_afterParts hr
  cases m with
  | nil => cases hd.starts _ hm
  | cons c t =>
    obtain rfl : c = 'e' := Option.some.inj (hd.starts _ hm)
    refine ⟨a, 'e' :: t, r, rfl, hm, ?_, ?_⟩
    · cases d
      simp only [Nat.zero_add, List.length_append] at hstart hstop ⊢
      rw [hstart] at hstop ⊢
      rw [hstop]
      congr 1
      omega
    · rw [hstart, Nat.zero_add, List.cons_append, isCodeIndex_append] at hcode
      rcases hcode with hcode | ⟨-, hnl⟩
      · rwa [(read_unmarked (by decide) (by decide) .code a).2] at hcode
      · exact absurd hnl (by decide)

/-- Without an equals sign nothing is found. -/
theorem findDeclaration_eq_none_of_notMem (hd : IsDeclaration mark parts) {cs : List Char}
    (hcs : '=' ∉ cs) : findDeclaration cs parts = none := by
  by_contra hfound
  obtain ⟨d, hfound⟩ := Option.ne_none_iff_exists'.mp hfound
  obtain ⟨a, m, r, rfl, hm, -, -⟩ := hd.split hfound
  obtain ⟨m', rfl, -, hequals⟩ := hd.fits m hm
  exact hcs (by simp [hequals])

/-- The first declaration in code is settled by the characters up to its bracket. -/
theorem findDeclaration_congr (hd : IsDeclaration mark parts) {a m r : List Char}
    (hm : Fits parts m)
    (h : findDeclaration (a ++ (m ++ r)) parts = some ⟨a.length, a.length + m.length⟩)
    (r' : List Char) :
    findDeclaration (a ++ (m ++ r')) parts = some ⟨a.length, a.length + m.length⟩ := by
  obtain ⟨m', rfl, -⟩ := hd.fits m hm
  rw [← List.append_assoc a] at h ⊢
  rw [← List.append_assoc a m'] at h ⊢
  refine findDeclaration_of_sealed (sealed_of_delimited hd.delimited (a ++ m')) ?_ h ?_ r'
  · intro c hc
    rw [List.getLast?_concat, Option.some.injEq] at hc
    exact hc ▸ hd.unmarked
  · simp only [List.length_append, List.length_cons, List.length_nil]
    omega

end IsDeclaration

end AppScaffold.Script
