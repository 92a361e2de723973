import AppScaffold.Proofs.Script.Declaration
import AppScaffold.Proofs.Script.Tokens
import Mathlib.Data.List.Basic
import Mathlib.Tactic.Common

/-!
# The first declaration in code

The search for a declaration goes on behind each find, so that it could miss one that begins inside
another. This does not happen: all texts of a pattern are the same but for blanks, and none of them ends
with a shorter one. So the declaration that is found is the first one that begins at a place in code.
-/

namespace AppScaffold.Script

/-- A text of the pattern begins at a place in code. -/
structure Begins (parts : List Part) (cs : List Char) (i : ℕ) : Prop where
  /-- The place is in code. -/
  code : InCode cs i
  /-- The script goes on with a text of the pattern. -/
  fits : ∃ m, Fits parts m ∧ m <+: cs.drop i

/-- No text of the pattern begins strictly inside another. -/
def Isolated (parts : List Part) : Prop :=
  ∀ a b m r r', a ≠ [] → b ≠ [] → Fits parts (a ++ b) → Fits parts m → b ++ r ≠ m ++ r'

/-- What a part spells that is no blank. -/
def Part.ink : Part → List Char
  | .exact text => text.filter (!Text.isBlank ·)
  | .blanks | .gap => []

/-- All texts of a pattern are the same but for their blanks. -/
theorem filter_of_fits {parts : List Part} {m : List Char} (h : Fits parts m) :
    m.filter (!Text.isBlank ·) = parts.flatMap Part.ink := by
  induction parts generalizing m with
  | nil =>
    rw [show m = [] from h]
    rfl
  | cons part parts ih =>
    obtain ⟨a, b, rfl, ha, hb⟩ := h
    have hpart : a.filter (!Text.isBlank ·) = part.ink := by
      cases part with
      | exact text => rw [show a = text from ha, Part.ink]
      | blanks => exact List.filter_eq_nil_iff.mpr fun c hc => by simp [ha c hc]
      | gap => exact List.filter_eq_nil_iff.mpr fun c hc => by simp [ha.2 c hc]
    rw [List.filter_append, hpart, ih hb, List.flatMap_cons]

/-- Declarations do not begin inside each other. -/
theorem IsDeclaration.isolated {mark : Char} {parts : List Part} (hd : IsDeclaration mark parts) :
    Isolated parts := by
  intro a b m r r' ha hb hab hm heq
  obtain ⟨ab', hab', hmark⟩ := hd.delimited _ hab
  -- the inner declaration ends where the outer one does
  obtain ⟨b', rfl⟩ : ∃ b', b = b' ++ [mark] := by
    have hlast : b.getLast? = some mark := by
      rw [← List.getLast?_append_of_ne_nil a hb, hab', List.getLast?_concat]
    exact ⟨b.dropLast, (List.dropLast_append_getLast? mark hlast).symm⟩
  have hb' : mark ∉ b' := by
    rw [← List.append_assoc] at hab'
    rw [← (List.append_inj' hab' rfl).1] at hmark
    exact fun hmem => hmark (List.mem_append_right _ hmem)
  have hsame : m = b' ++ [mark] := by
    have hprefix : m <+: b' ++ [mark] := hd.delimited.begins hm (by simpa using heq)
    refine (List.prefix_concat_iff.mp hprefix).resolve_right fun hshort => hb' ?_
    obtain ⟨m', rfl, -⟩ := hd.delimited _ hm
    exact hshort.subset (by simp)
  -- so nothing but blanks stands before it
  have hink : a.filter (!Text.isBlank ·) = [] := by
    have hwhole := filter_of_fits hab
    rw [← filter_of_fits hm, hsame, List.filter_append] at hwhole
    exact List.append_left_eq_self.mp hwhole
  obtain ⟨c, a', rfl⟩ := List.exists_cons_of_ne_nil ha
  have hfirst : c = 'e' := by simpa using hd.starts _ hab
  have hblank := List.filter_eq_nil_iff.mp hink c List.mem_cons_self
  rw [hfirst] at hblank
  exact hblank (by decide)

section Search

variable {parts : List Part} {cs : List Char}

/-- Finds are made from left to right. -/
theorem pairwise_spans (fit : Option Char → List Char → Option (List Char)) (index skip : ℕ)
    (before : Option Char) (cs : List Char) :
    (spans fit index skip before cs).Pairwise (·.start < ·.start) := by
  have hlater : ∀ {skip : ℕ} {before : Option Char} {cs : List Char} {index : ℕ},
      ∀ s ∈ spans fit (index + 1) skip before cs, index < s.start := by
    intro skip before cs index s hs
    obtain ⟨a, b, r, -, -, -, hstart, -⟩ := mem_spans hs
    omega
  induction cs generalizing index skip before with
  | nil => exact .nil
  | cons c cs ih =>
    rw [spans]
    split_ifs
    · split
      · exact .cons (fun s hs => hlater s hs) (ih _ _ _)
      · exact ih _ _ _
    · exact ih _ _ _

/-- A text of the pattern is found wherever it begins, unless a find that goes on there is passed
over. -/
theorem exists_span (hparts : Isolated parts) {skip i : ℕ} (hskip : skip ≤ i) {m : List Char}
    (hm : Fits parts m) (hne : m ≠ []) (h : m <+: cs.drop i) (index : ℕ) (before : Option Char) :
    ∃ s ∈ spans (fun _ => afterParts parts) index skip before cs, s.start = index + i := by
  induction cs generalizing i skip index before with
  | nil =>
    rw [List.drop_nil, List.prefix_nil] at h
    exact absurd h hne
  | cons c cs ih =>
    rw [spans]
    cases i with
    | zero =>
      obtain rfl : skip = 0 := Nat.le_zero.mp hskip
      obtain ⟨r, hr⟩ := h
      obtain ⟨rest, hrest⟩ := exists_afterParts hm r
      rw [hr, List.drop_zero] at hrest
      rw [if_pos rfl]
      simp only [hrest]
      exact ⟨_, List.mem_cons_self, rfl⟩
    | succ i =>
      rw [List.drop_succ_cons] at h
      have hlater : ∀ skip ≤ i,
          ∃ s ∈ spans (fun _ => afterParts parts) (index + 1) skip (some c) cs,
            s.start = index + (i + 1) := by
        intro skip hskip
        obtain ⟨s, hs, hstart⟩ := ih hskip h (index + 1) (some c)
        exact ⟨s, hs, by omega⟩
      split_ifs
      · cases hfit : afterParts parts (c :: cs) with
        | none => exact hlater 0 (Nat.zero_le i)
        | some rest =>
          obtain ⟨m', hm', hsplit⟩ := fits_of_afterParts hfit
          have hsize : cs.length + 1 = m'.length + rest.length := by
            rw [← List.length_append, ← hsplit, List.length_cons]
          -- the find that begins here ends before the text that is looked for begins
          have hends : m'.length ≤ i + 1 := by
            by_contra hlong
            obtain ⟨r, hr⟩ := h
            refine hparts (m'.take (i + 1)) (m'.drop (i + 1)) m rest r ?_ ?_
              (by rwa [List.take_append_drop]) hm ?_
            · intro hnil
              have hlength := congrArg List.length hnil
              rw [List.length_take, List.length_nil] at hlength
              omega
            · intro hnil
              exact hlong (List.drop_eq_nil_iff.mp hnil)
            · rw [hr, ← List.drop_append_of_le_length (by omega), ← hsplit, List.drop_succ_cons]
          obtain ⟨s, hs, hstart⟩ := hlater (cs.length + 1 - rest.length - 1) (by omega)
          exact ⟨s, List.mem_cons_of_mem _ hs, hstart⟩
      · exact hlater _ (by omega)

variable {mark : Char} {d : Span} {i : ℕ}

/-- A declaration has a character. -/
theorem IsDeclaration.ne_nil (hd : IsDeclaration mark parts) {m : List Char} (hm : Fits parts m) :
    m ≠ [] := by
  rintro rfl
  exact absurd (hd.starts _ hm) (by simp)

/-- The declaration that is found begins at a place in code, and none begins at an earlier one. -/
theorem IsDeclaration.begins_of_findDeclaration (hd : IsDeclaration mark parts)
    (h : findDeclaration cs parts = some d) :
    Begins parts cs d.start ∧ ∀ j < d.start, ¬Begins parts cs j := by
  obtain ⟨a, m, r, rfl, hm, rfl, -⟩ := hd.split h
  obtain ⟨hcode, before, after, hspans, hbefore⟩ := List.find?_eq_some_iff_append.mp h
  refine ⟨⟨(isCodeIndex_iff _ _).mp hcode, m, hm, by simp⟩, fun j hj hbegins => ?_⟩
  obtain ⟨m', hm', hprefix⟩ := hbegins.fits
  obtain ⟨s, hs, hstart⟩ :=
    exists_span hd.isolated (Nat.zero_le j) hm' (hd.ne_nil hm') hprefix 0 none
  have hsorted := pairwise_spans (fun _ => afterParts parts) 0 0 none (a ++ (m ++ r))
  rw [hspans] at hs hsorted
  have hlater := (List.pairwise_cons.mp (List.pairwise_append.mp hsorted).2.1).1
  rcases List.mem_append.mp hs with hs | hs
  · have hnot := hbefore s hs
    rw [hstart, Nat.zero_add, (isCodeIndex_iff _ _).mpr hbegins.code] at hnot
    cases hnot
  · rcases List.mem_cons.mp hs with rfl | hs
    · exact absurd hstart (by simp at hj ⊢; omega)
    · have hlt := hlater s hs
      simp only [hstart] at hlt hj
      omega

/-- A declaration is found if one begins at a place in code. -/
theorem IsDeclaration.exists_findDeclaration (hd : IsDeclaration mark parts)
    (h : Begins parts cs i) : ∃ d, findDeclaration cs parts = some d := by
  obtain ⟨m, hm, hprefix⟩ := h.fits
  obtain ⟨s, hs, hstart⟩ :=
    exists_span hd.isolated (Nat.zero_le i) hm (hd.ne_nil hm) hprefix 0 none
  have hcode : isCodeIndex cs s.start = true := by
    rw [hstart, Nat.zero_add, isCodeIndex_iff]
    exact h.code
  exact Option.isSome_iff_exists.mp (List.find?_isSome.mpr ⟨s, hs, hcode⟩)

/-- A declaration begins at the first place in code where one can begin. -/
theorem declarationStart_eq_some_iff {anchor : Anchor} (hparts : anchor.parts = some parts)
    (hd : IsDeclaration mark parts) :
    anchor.declarationStart cs = some i ↔ Begins parts cs i ∧ ∀ j < i, ¬Begins parts cs j := by
  simp only [Anchor.declarationStart, hparts, Option.map_eq_some_iff]
  constructor
  · rintro ⟨d, hfind, rfl⟩
    exact hd.begins_of_findDeclaration hfind
  · rintro ⟨hbegins, hfirst⟩
    obtain ⟨d, hfind⟩ := hd.exists_findDeclaration hbegins
    obtain ⟨hd, hfirst'⟩ := hd.begins_of_findDeclaration hfind
    refine ⟨d, hfind, Nat.le_antisymm ?_ ?_⟩
    · exact Nat.le_of_not_lt fun hlt => hfirst' i hlt hbegins
    · exact Nat.le_of_not_lt fun hlt => hfirst _ hlt hd

/-- No declaration is found exactly if none begins at a place in code. -/
theorem declarationStart_eq_none_iff {anchor : Anchor} (hparts : anchor.parts = some parts)
    (hd : IsDeclaration mark parts) :
    anchor.declarationStart cs = none ↔ ∀ i, ¬Begins parts cs i := by
  simp only [Anchor.declarationStart, hparts, Option.map_eq_none_iff]
  constructor
  · intro hnone i hbegins
    obtain ⟨d, hfind⟩ := hd.exists_findDeclaration hbegins
    rw [hnone] at hfind
    cases hfind
  · intro hno
    cases hfind : findDeclaration cs parts with
    | none => rfl
    | some d => exact absurd (hd.begins_of_findDeclaration hfind).1 (hno _)

end Search

end AppScaffold.Script
