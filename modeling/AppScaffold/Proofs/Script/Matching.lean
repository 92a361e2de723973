import AppScaffold.Script.Search
import Mathlib.Data.List.Basic
import Mathlib.Tactic.Common

/-!
# What a search finds

A pattern stands for the texts that its parts spell in turn. The search for it is exact whenever all
of these texts end with a character that occurs nowhere else in them. A piece of a script is sealed
when no find that begins in it reaches beyond its end; the search goes through sealed pieces one after
the other.
-/

namespace AppScaffold.Script

/-- The texts that one part stands for. -/
def Part.Fits : Part → List Char → Prop
  | .exact text, m => m = text
  | .blanks, m => ∀ c ∈ m, Text.isBlank c = true
  | .gap, m => m ≠ [] ∧ ∀ c ∈ m, Text.isBlank c = true

/-- The texts that a pattern stands for. -/
def Fits : List Part → List Char → Prop
  | [], m => m = []
  | part :: parts, m => ∃ a b, m = a ++ b ∧ part.Fits a ∧ Fits parts b

/-- A text is cut exactly when it begins with the given characters. -/
theorem afterText_eq_some_iff {text cs rest : List Char} :
    afterText text cs = some rest ↔ cs = text ++ rest := by
  induction text generalizing cs with
  | nil => simp only [afterText, Option.some.injEq, List.nil_append]
  | cons t ts ih =>
    cases cs with
    | nil => simp only [afterText, List.cons_append, reduceCtorEq]
    | cons c cs =>
      by_cases h : t = c
      · simp only [afterText, h, if_true, ih, List.cons_append, List.cons.injEq, true_and]
      · simp only [afterText, h, if_false, List.cons_append, List.cons.injEq, reduceCtorEq,
          Ne.symm h, false_and]

/-- The blanks at the front can be cut at every place. -/
theorem mem_afterBlanks_iff {cs rest : List Char} :
    rest ∈ afterBlanks cs ↔ ∃ m, (∀ c ∈ m, Text.isBlank c = true) ∧ cs = m ++ rest := by
  induction cs with
  | nil =>
    rw [afterBlanks, List.mem_singleton]
    constructor
    · rintro rfl
      exact ⟨[], by simp, rfl⟩
    · rintro ⟨m, -, hm⟩
      exact (List.append_eq_nil_iff.mp hm.symm).2
  | cons c cs ih =>
    have hsplit : ∀ m, c :: cs = m ++ rest ↔
        (m = [] ∧ rest = c :: cs) ∨ ∃ m', m = c :: m' ∧ cs = m' ++ rest := by
      intro m
      cases m with
      | nil => simp [eq_comm]
      | cons d ds =>
        simp only [List.cons_append, List.cons.injEq, reduceCtorEq, false_and, false_or]
        constructor
        · rintro ⟨rfl, h⟩
          exact ⟨ds, ⟨rfl, rfl⟩, h⟩
        · rintro ⟨m', ⟨rfl, rfl⟩, h⟩
          exact ⟨rfl, h⟩
    rw [afterBlanks]
    by_cases hb : Text.isBlank c = true
    · rw [if_pos hb, List.mem_append, ih, List.mem_singleton]
      constructor
      · rintro (⟨m, hm, rfl⟩ | rfl)
        · exact ⟨c :: m, by simpa [hb] using hm, rfl⟩
        · exact ⟨[], by simp, rfl⟩
      · rintro ⟨m, hm, he⟩
        rcases (hsplit m).mp he with ⟨-, rfl⟩ | ⟨m', rfl, rfl⟩
        · exact .inr rfl
        · exact .inl ⟨m', fun d hd => hm d (List.mem_cons_of_mem _ hd), rfl⟩
    · rw [if_neg hb, List.mem_singleton]
      constructor
      · rintro rfl
        exact ⟨[], by simp, rfl⟩
      · rintro ⟨m, hm, he⟩
        rcases (hsplit m).mp he with ⟨-, rfl⟩ | ⟨m', rfl, -⟩
        · rfl
        · exact absurd (hm c List.mem_cons_self) hb

/-- One part leaves exactly what stands behind a text that it stands for. -/
theorem Part.mem_after_iff {part : Part} {cs rest : List Char} :
    rest ∈ part.after cs ↔ ∃ m, part.Fits m ∧ cs = m ++ rest := by
  cases part with
  | exact text =>
    simp only [Part.after, Option.mem_toList, afterText_eq_some_iff, Part.Fits,
      exists_eq_left]
  | blanks => exact mem_afterBlanks_iff
  | gap =>
    cases cs with
    | nil =>
      simp only [Part.after, List.not_mem_nil, Part.Fits, false_iff, not_exists, not_and]
      rintro m ⟨hm, -⟩ he
      exact hm (List.append_eq_nil_iff.mp he.symm).1
    | cons c cs =>
      simp only [Part.after, Part.Fits]
      constructor
      · intro h
        by_cases hb : Text.isBlank c = true
        · rw [if_pos hb] at h
          obtain ⟨m, hm, rfl⟩ := mem_afterBlanks_iff.mp h
          exact ⟨c :: m, ⟨List.cons_ne_nil _ _, by simpa [hb] using hm⟩, rfl⟩
        · rw [if_neg hb] at h
          cases h
      · rintro ⟨m, ⟨hne, hm⟩, he⟩
        cases m with
        | nil => exact absurd rfl hne
        | cons d ds =>
          obtain ⟨rfl, rfl⟩ := List.cons.inj he
          rw [if_pos (hm _ List.mem_cons_self)]
          exact mem_afterBlanks_iff.mpr ⟨ds, fun x hx => hm x (List.mem_cons_of_mem _ hx), rfl⟩

/-- What a pattern leaves stands behind a text that the pattern stands for. -/
theorem fits_of_afterParts {parts : List Part} {cs rest : List Char}
    (h : afterParts parts cs = some rest) : ∃ m, Fits parts m ∧ cs = m ++ rest := by
  induction parts generalizing cs with
  | nil => exact ⟨[], rfl, by simpa [afterParts] using h⟩
  | cons part parts ih =>
    rw [afterParts, List.findSome?_eq_some_iff] at h
    obtain ⟨before, mid, behind, hsplit, hmid, -⟩ := h
    have hmem : mid ∈ part.after cs := by
      rw [hsplit]
      exact List.mem_append_right _ List.mem_cons_self
    obtain ⟨a, ha, rfl⟩ := Part.mem_after_iff.mp hmem
    obtain ⟨b, hb, rfl⟩ := ih hmid
    exact ⟨a ++ b, ⟨a, b, rfl, ha, hb⟩, by rw [List.append_assoc]⟩

/-- A pattern leaves something wherever a text that it stands for begins. -/
theorem exists_afterParts {parts : List Part} {m : List Char} (h : Fits parts m)
    (rest : List Char) : ∃ rest', afterParts parts (m ++ rest) = some rest' := by
  induction parts generalizing m with
  | nil => exact ⟨m ++ rest, rfl⟩
  | cons part parts ih =>
    obtain ⟨a, b, rfl, ha, hb⟩ := h
    obtain ⟨rest', hrest⟩ := ih hb
    have hmem : b ++ rest ∈ part.after (a ++ b ++ rest) :=
      Part.mem_after_iff.mpr ⟨a, ha, by rw [List.append_assoc]⟩
    have hsome : ((part.after (a ++ b ++ rest)).findSome? (afterParts parts)).isSome = true :=
      List.findSome?_isSome_iff.mpr ⟨b ++ rest, hmem, by rw [hrest]; rfl⟩
    exact Option.isSome_iff_exists.mp hsome

/-- A text without a character ends before the first place of that character. -/
theorem prefix_of_notMem {c : Char} {m r x rest : List Char} (hc : c ∉ m)
    (h : x ++ c :: rest = m ++ r) : m <+: x := by
  rcases List.append_eq_append_iff.mp h with ⟨t, rfl, ht⟩ | ⟨t, rfl, -⟩
  · cases t with
    | nil => exact ⟨[], by simp⟩
    | cons d ds =>
      obtain ⟨rfl, -⟩ := List.cons.inj ht
      exact absurd (List.mem_append_right _ List.mem_cons_self) hc
  · exact ⟨t, rfl⟩

/-- Every text that the pattern stands for ends with `mark` and has no other `mark` in it. -/
def Delimited (mark : Char) (parts : List Part) : Prop :=
  ∀ m, Fits parts m → ∃ m', m = m' ++ [mark] ∧ mark ∉ m'

/-- Up to its first mark a find is determined by what it begins with. -/
theorem Delimited.begins {mark : Char} {parts : List Part} (hd : Delimited mark parts)
    {m r x rest : List Char} (hm : Fits parts m) (h : x ++ mark :: rest = m ++ r) :
    m <+: x ++ [mark] := by
  obtain ⟨m', rfl, hm'⟩ := hd m hm
  rw [List.append_assoc] at h
  obtain ⟨t, rfl⟩ := prefix_of_notMem hm' h
  rw [List.append_assoc] at h
  cases t with
  | nil => exact ⟨[], by simp⟩
  | cons d ds =>
    obtain ⟨rfl, -⟩ := List.cons.inj (List.append_cancel_left h)
    exact ⟨ds ++ [d], by simp⟩

/-- A delimited pattern leaves exactly what stands behind a text that it stands for. -/
theorem afterParts_eq_some_iff {mark : Char} {parts : List Part} (hd : Delimited mark parts)
    {cs rest : List Char} :
    afterParts parts cs = some rest ↔ ∃ m, Fits parts m ∧ cs = m ++ rest := by
  constructor
  · exact fits_of_afterParts
  · rintro ⟨m, hm, rfl⟩
    obtain ⟨rest', hrest⟩ := exists_afterParts hm rest
    obtain ⟨n, hn, he⟩ := fits_of_afterParts hrest
    obtain ⟨m', rfl, hm'⟩ := hd m hm
    obtain ⟨n', rfl, hn'⟩ := hd n hn
    have hpre : m' ++ [mark] <+: n' ++ [mark] := hd.begins hm (by simpa using he.symm)
    have hpre' : n' ++ [mark] <+: m' ++ [mark] := hd.begins hn (by simpa using he)
    have hsame : m' ++ [mark] = n' ++ [mark] := hpre.eq_of_length_le hpre'.length_le
    rw [hsame] at he
    rw [hrest, List.append_cancel_left he]

/-- No find that begins in the piece reaches beyond its end, whatever lies there. -/
def Sealed (parts : List Part) (p : List Char) : Prop :=
  ∀ x rest, x <:+ p → x ≠ [] → afterParts parts (x ++ rest) = (afterParts parts x).map (· ++ rest)

/-- A search is local at a place when all that can be found there ends inside `x`. -/
theorem afterParts_append {mark : Char} {parts : List Part} (hd : Delimited mark parts)
    {x rest : List Char} (h : ∀ m r, Fits parts m → x ++ rest = m ++ r → m <+: x) :
    afterParts parts (x ++ rest) = (afterParts parts x).map (· ++ rest) := by
  cases hx : afterParts parts x with
  | some r =>
    obtain ⟨m, hm, rfl⟩ := fits_of_afterParts hx
    rw [Option.map_some, afterParts_eq_some_iff hd]
    exact ⟨m, hm, by rw [List.append_assoc]⟩
  | none =>
    rw [Option.map_none, Option.eq_none_iff_forall_ne_some]
    intro r hr
    obtain ⟨m, hm, he⟩ := fits_of_afterParts hr
    obtain ⟨t, rfl⟩ := h m r hm he
    rw [(afterParts_eq_some_iff hd).mpr ⟨m, hm, rfl⟩] at hx
    cases hx

/-- The empty piece is sealed. -/
theorem sealed_nil (parts : List Part) : Sealed parts [] :=
  fun _ _ hx hne => absurd (List.suffix_nil.mp hx) hne

/-- Two sealed pieces are sealed together. -/
theorem Sealed.append {parts : List Part} {p q : List Char} (hp : Sealed parts p)
    (hq : Sealed parts q) : Sealed parts (p ++ q) := by
  rintro x rest ⟨t, ht⟩ hne
  rcases List.append_eq_append_iff.mp ht with ⟨x', rfl, rfl⟩ | ⟨t', -, rfl⟩
  · by_cases hnil : x' = []
    · subst hnil
      exact hq q rest (List.suffix_refl q) hne
    · have hx' : x' <:+ t ++ x' := List.suffix_append t x'
      rw [List.append_assoc, hp x' (q ++ rest) hx' hnil, hp x' q hx' hnil, Option.map_map]
      congr 1
      funext r
      simp only [Function.comp_apply, List.append_assoc]
  · exact hq x rest (List.suffix_append t' x) hne

/-- The mark at the end of a piece ends every find. -/
theorem sealed_of_delimited {mark : Char} {parts : List Part} (hd : Delimited mark parts)
    (p : List Char) : Sealed parts (p ++ [mark]) := by
  intro x rest hx hne
  rcases List.suffix_concat_iff.mp hx with rfl | ⟨x', rfl, -⟩
  · exact absurd rfl hne
  · refine afterParts_append hd fun m r hm he => ?_
    rw [List.append_assoc, List.singleton_append] at he
    exact hd.begins hm he

/-- No find goes over a character that occurs in none of the texts of the pattern. -/
theorem sealed_of_foreign {mark c : Char} {parts : List Part} (hd : Delimited mark parts)
    (hc : ∀ m, Fits parts m → c ∉ m) (p : List Char) : Sealed parts (p ++ [c]) := by
  intro x rest hx hne
  rcases List.suffix_concat_iff.mp hx with rfl | ⟨x', rfl, -⟩
  · exact absurd rfl hne
  · refine afterParts_append hd fun m r hm he => ?_
    rw [List.append_assoc, List.singleton_append] at he
    exact (prefix_of_notMem (hc m hm) he).trans (List.prefix_append x' [c])

/-- Where no text of the pattern can begin, nothing is found. -/
theorem sealed_of_idle {mark : Char} {parts : List Part} (hd : Delimited mark parts)
    {p : List Char} (hp : ∀ m, Fits parts m → ∃ c t, m = c :: t ∧ c ∉ p) : Sealed parts p := by
  intro x rest hx hne
  refine afterParts_append hd fun m r hm he => ?_
  obtain ⟨c, t, rfl, hc⟩ := hp m hm
  cases x with
  | nil => exact absurd rfl hne
  | cons d ds =>
    obtain ⟨rfl, -⟩ := List.cons.inj he
    exact absurd (hx.subset List.mem_cons_self) hc

/-- A test that does not look at the character in front gives the same finds behind any. -/
theorem spans_before (fit : List Char → Option (List Char)) (index skip : Nat)
    (before before' : Option Char) (cs : List Char) :
    spans (fun _ => fit) index skip before cs = spans (fun _ => fit) index skip before' cs := by
  cases cs <;> rfl

/-- The search goes through a sealed piece and then, from its end, through the rest. -/
theorem spans_append {parts : List Part} {p : List Char} (hp : Sealed parts p)
    {skip : Nat} (hskip : skip ≤ p.length) (index : Nat) (before before' : Option Char)
    (q : List Char) :
    spans (fun _ => afterParts parts) index skip before (p ++ q) =
      spans (fun _ => afterParts parts) index skip before p ++
        spans (fun _ => afterParts parts) (index + p.length) 0 before' q := by
  induction p generalizing index skip before with
  | nil =>
    obtain rfl : skip = 0 := Nat.le_zero.mp hskip
    exact spans_before ..
  | cons c p ih =>
    have hrest : Sealed parts p := fun x rest hx => hp x rest (hx.trans (List.suffix_cons c p))
    have hhere := hp (c :: p) q (List.suffix_refl _) (List.cons_ne_nil c p)
    rw [List.cons_append] at hhere
    have hindex : index + (c :: p).length = index + 1 + p.length := by
      rw [List.length_cons]
      omega
    rw [List.length_cons] at hskip
    rw [List.cons_append, spans, spans, hindex]
    by_cases hzero : skip = 0
    · rw [if_pos hzero, if_pos hzero, hhere]
      cases hfit : afterParts parts (c :: p) with
      | none => exact ih hrest (Nat.zero_le _) (index + 1) (some c)
      | some r =>
        simp only [Option.map_some, List.length_append]
        have hsize : p.length + q.length + 1 - (r.length + q.length) = p.length + 1 - r.length := by
          omega
        rw [hsize, ih hrest (by omega) (index + 1) (some c)]
        rfl
    · rw [if_neg hzero, if_neg hzero]
      exact ih hrest (by omega) (index + 1) (some c)

/-- Every find begins inside the text that is searched, ends in it and stands for the pattern. -/
theorem mem_spans {fit : Option Char → List Char → Option (List Char)} {index skip : Nat}
    {before : Option Char} {cs : List Char} {s : Span} (h : s ∈ spans fit index skip before cs) :
    ∃ a b r, cs = a ++ b ∧ b ≠ [] ∧ fit (a.getLast?.or before) b = some r ∧
      s.start = index + a.length ∧ s.stop = s.start + (b.length - r.length) := by
  induction cs generalizing index skip before with
  | nil => cases h
  | cons c cs ih =>
    have hlater : ∀ {k}, s ∈ spans fit (index + 1) k (some c) cs →
        ∃ a b r, c :: cs = a ++ b ∧ b ≠ [] ∧ fit (a.getLast?.or before) b = some r ∧
          s.start = index + a.length ∧ s.stop = s.start + (b.length - r.length) := by
      intro k hs
      obtain ⟨a, b, r, rfl, hb, hr, hstart, hstop⟩ := ih hs
      refine ⟨c :: a, b, r, rfl, hb, ?_, ?_, hstop⟩
      · rw [List.getLast?_cons]
        cases hl : a.getLast? <;> simpa [hl] using hr
      · rw [hstart, List.length_cons]
        omega
    rw [spans] at h
    by_cases hzero : skip = 0
    · rw [if_pos hzero] at h
      cases hfit : fit before (c :: cs) with
      | none =>
        rw [hfit] at h
        exact hlater h
      | some r =>
        rw [hfit] at h
        rcases List.mem_cons.mp h with rfl | h
        · exact ⟨[], c :: cs, r, rfl, List.cons_ne_nil _ _, hfit, rfl, rfl⟩
        · exact hlater h
    · rw [if_neg hzero] at h
      exact hlater h

/-- A find begins and ends inside the text. -/
theorem le_length_of_mem_spans {fit : Option Char → List Char → Option (List Char)} {skip : Nat}
    {before : Option Char} {cs : List Char} {s : Span} (h : s ∈ spans fit 0 skip before cs) :
    s.start ≤ cs.length ∧ s.stop ≤ cs.length := by
  obtain ⟨a, b, r, rfl, -, -, hstart, hstop⟩ := mem_spans h
  rw [hstop, hstart, List.length_append]
  omega

end AppScaffold.Script
