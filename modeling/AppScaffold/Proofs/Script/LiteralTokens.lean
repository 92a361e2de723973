import AppScaffold.Proofs.Script.Entries
import AppScaffold.Proofs.Script.FirstDeclaration
import Mathlib.Data.List.Basic
import Mathlib.Data.List.Induction
import Mathlib.Tactic.Common

/-!
# The place for an entry, token by token

The search for the place of an entry reads the literal of a declaration from its bracket on. It agrees
with the tokens of the whole script: the literal ends with the first token behind which as many brackets
are closed as were opened, and the place lies in code, in front of the comments and blanks that the
literal ends with.
-/

namespace AppScaffold.Script

namespace Token

/-- What a token adds to the number of open brackets. -/
def value : Token → ℤ
  | single c => if isClosing c then -1 else if isOpening c then 1 else 0
  | comment _ | string .. => 0

/-- A comment, or an ASCII blank between tokens. -/
def isTrivia : Token → Bool
  | comment _ => true
  | string .. => false
  | single c => isAsciiBlank c

/-- A token closes at most one bracket. -/
theorem neg_one_le_value (t : Token) : -1 ≤ t.value := by
  unfold value
  split
  · split_ifs <;> decide
  · decide
  · decide

/-- What closes a bracket is a closing bracket. -/
theorem exists_of_value (t : Token) (h : t.value < 0) : ∃ c, t = .single c ∧ isClosing c = true := by
  unfold value at h
  split at h
  · next c =>
    refine ⟨c, rfl, ?_⟩
    split_ifs at h with hclose
    · exact hclose
    · exact absurd h (by decide)
    · exact absurd h (by decide)
  · exact absurd h (by decide)
  · exact absurd h (by decide)

end Token

/-- The number of brackets that some tokens open and do not close. -/
def depth : List Token → ℤ
  | [] => 0
  | t :: ts => t.value + depth ts

@[simp] theorem depth_nil : depth [] = 0 := rfl

@[simp] theorem depth_cons (t : Token) (ts : List Token) : depth (t :: ts) = t.value + depth ts := rfl

@[simp] theorem depth_append (ts us : List Token) : depth (ts ++ us) = depth ts + depth us := by
  induction ts with
  | nil => simp
  | cons t ts ih =>
    rw [List.cons_append, depth_cons, depth_cons, ih]
    omega

/-- The content of some tokens: all but comments and the blanks between tokens. -/
def content (ts : List Token) : List Char := textOf (ts.filter (!·.isTrivia))

/-- Counted from the first token on, the depth is zero behind the last token, and not before. -/
structure Closes (ts : List Token) : Prop where
  /-- What was opened is closed. -/
  depth : depth ts = 0
  /-- It is not closed earlier. -/
  first : ∀ front back, ts = front ++ back → front ≠ [] → back ≠ [] → Script.depth front ≠ 0

section Depth

variable {d e n : ℕ} {t : Token} {ts : List Token}

/-- Characters of comments and strings are no brackets. -/
theorem depthAfter_of_ne_code {rs : List (Char × Role)} (h : ∀ r ∈ rs, r.2 ≠ .code) (d : ℕ) :
    depthAfter d rs = some d := by
  induction rs with
  | nil => rfl
  | cons r rs ih =>
    obtain ⟨c, role⟩ := r
    have hstep : depthStep d (c, role) = some d := by
      have hne := h (c, role) List.mem_cons_self
      cases role <;> first | rfl | exact absurd rfl hne
    rw [depthAfter, hstep, Option.bind_some, ih fun r hr => h r (List.mem_cons_of_mem _ hr)]

/-- A token changes the number of open brackets by what it adds, unless it closes too many. -/
theorem depthAfter_roles (d : ℕ) (t : Token) :
    depthAfter d t.roles =
      if 0 ≤ (d : ℤ) + t.value then some ((d : ℤ) + t.value).toNat else none := by
  cases t with
  | comment body =>
    rw [depthAfter_of_ne_code (by simp [Token.roles]), if_pos (by simp [Token.value])]
    simp [Token.value]
  | string mark body closed =>
    rw [depthAfter_of_ne_code (by cases closed <;> simp +contextual [Token.roles, or_imp]),
      if_pos (by simp [Token.value])]
    simp [Token.value]
  | single c =>
    simp only [Token.roles, Token.value, depthAfter, depthStep]
    by_cases hclose : isClosing c = true
    · rcases Nat.eq_zero_or_pos d with rfl | hpos
      · simp [hclose]
      · have hle : (0 : ℤ) ≤ d + -1 := by omega
        simp [hclose, hle, Nat.pos_iff_ne_zero.mp hpos]
        omega
    · by_cases hopen : isOpening c = true
      · have hle : (0 : ℤ) ≤ d + 1 := by omega
        simp [hclose, hopen, hle]
      · simp [hclose, hopen]

/-- The reader and the tokens agree on the number of open brackets. -/
theorem depthAfter_flatMap_iff :
    depthAfter d (ts.flatMap Token.roles) = some e ↔
      (d : ℤ) + depth ts = e ∧ ∀ front, front <+: ts → 0 ≤ (d : ℤ) + depth front := by
  -- the reader stops as soon as a prefix closes too much, so all prefixes have to be looked at
  induction ts generalizing d with
  | nil =>
    simp only [List.flatMap_nil, depthAfter, Option.some.injEq, depth_nil, List.prefix_nil,
      forall_eq]
    omega
  | cons t ts ih =>
    rw [List.flatMap_cons, depthAfter_append, depthAfter_roles]
    split_ifs with hle
    · rw [Option.bind_some, ih, Int.toNat_of_nonneg hle]
      simp only [depth_cons, List.prefix_cons_iff]
      constructor
      · rintro ⟨hsum, hprefix⟩
        refine ⟨by omega, ?_⟩
        rintro front (rfl | ⟨front, rfl, hfront⟩)
        · simp
        · have h := hprefix front hfront
          rw [depth_cons]
          omega
      · rintro ⟨hsum, hprefix⟩
        refine ⟨by omega, fun front hfront => ?_⟩
        have h := hprefix (t :: front) (.inr ⟨front, rfl, hfront⟩)
        rw [depth_cons] at h
        omega
    · simp only [Option.bind_none, reduceCtorEq, false_iff, not_and]
      intro _ hprefix
      have h := hprefix [t] ⟨ts, rfl⟩
      rw [depth_cons, depth_nil] at h
      omega

/-- Before the depth is zero it is positive. -/
theorem depth_pos_of_ne_zero {opening : Token} (hopening : opening.value = 1)
    (h : ∀ front, front <+: ts → depth (opening :: front) ≠ 0) : 0 < depth (opening :: ts) := by
  induction ts using List.reverseRecOn with
  | nil => simp [hopening]
  | append_singleton ts t ih =>
    have hbefore := ih fun front hfront => h front (hfront.trans (List.prefix_append _ _))
    have hne := h (ts ++ [t]) List.prefix_rfl
    have hvalue := t.neg_one_le_value
    simp only [depth_cons, depth_append, depth_nil] at hbefore hne ⊢
    omega

/-- The tokens are closed where the reader finds that they are. -/
theorem closes_iff {opening closing : Token} {inner : List Token}
    (hopening : opening.value = 1) :
    Closes (opening :: (inner ++ [closing])) ↔
      depthAfter 0 (inner.flatMap Token.roles) = some 0 ∧
        ∃ c, closing = .single c ∧ isClosing c = true := by
  have hvalue : ∀ c, isClosing c = true → (Token.single c).value = -1 := by
    intro c hc
    simp [Token.value, hc]
  rw [depthAfter_flatMap_iff]
  constructor
  · rintro ⟨hdepth, hfirst⟩
    have hprefix : ∀ front, front <+: inner → 0 < depth (opening :: front) := by
      rintro front ⟨rest, rfl⟩
      refine depth_pos_of_ne_zero hopening ?_
      rintro before ⟨after, rfl⟩
      exact hfirst (opening :: before) (after ++ rest ++ [closing]) (by simp) (by simp) (by simp)
    have hwhole := hprefix inner List.prefix_rfl
    simp only [depth_cons, depth_append, depth_nil] at hdepth hwhole
    have hbound := closing.neg_one_le_value
    refine ⟨⟨by push_cast; omega, fun front hfront => ?_⟩, closing.exists_of_value (by omega)⟩
    have h := hprefix front hfront
    rw [depth_cons] at h
    push_cast
    omega
  · rintro ⟨⟨hsum, hprefix⟩, c, hsingle, hc⟩
    subst hsingle
    refine ⟨?_, ?_⟩
    · simp only [depth_cons, depth_append, depth_nil, hopening, hvalue c hc]
      push_cast at hsum
      omega
    · rintro (_ | ⟨first, front⟩) back heq hfront hback
      · exact absurd rfl hfront
      · rw [List.cons_append, List.cons.injEq] at heq
        obtain ⟨rfl, heq⟩ := heq
        have hinner : front <+: inner := by
          have hconcat : front <+: inner ++ [Token.single c] := ⟨back, heq.symm⟩
          refine (List.prefix_concat_iff.mp hconcat).resolve_left fun hwhole => hback ?_
          rw [hwhole] at heq
          exact List.append_right_eq_self.mp heq.symm
        have h := hprefix front hinner
        rw [depth_cons, hopening]
        push_cast at h
        omega

/-- A character of code is a token of its own. -/
theorem Token.eq_single_of_mem {c : Char} (h : (c, .code) ∈ t.roles) : t = .single c := by
  cases t with
  | comment body => simp [Token.roles] at h
  | string mark body closed => cases closed <;> simp [Token.roles] at h
  | single c' => simpa [Token.roles, eq_comm] using h

/-- At a character of code the tokens are divided. -/
theorem exists_single_of_roles {xs ys : List (Char × Role)} {c : Char}
    (h : ts.flatMap Token.roles = xs ++ (c, .code) :: ys) :
    ∃ front back, ts = front ++ .single c :: back ∧ front.flatMap Token.roles = xs := by
  induction ts generalizing xs with
  | nil => simp at h
  | cons t ts ih =>
    have hlater : ∀ rest : List (Char × Role), ts.flatMap Token.roles = rest ++ (c, .code) :: ys →
        ∃ front back, t :: ts = front ++ .single c :: back ∧
          front.flatMap Token.roles = t.roles ++ rest := by
      intro rest hrest
      obtain ⟨front, back, rfl, hfront⟩ := ih hrest
      exact ⟨t :: front, back, rfl, by rw [List.flatMap_cons, hfront]⟩
    rw [List.flatMap_cons] at h
    rcases List.append_eq_append_iff.mp h with ⟨rest, rfl, hrest⟩ | ⟨rest, hroles, hrest⟩
    · exact hlater rest hrest
    · cases rest with
      | nil =>
        rw [List.append_nil] at hroles
        have h := hlater [] hrest.symm
        rwa [List.append_nil, hroles] at h
      | cons r rest =>
        rw [List.cons_append, List.cons.injEq] at hrest
        obtain rfl : t = .single c := Token.eq_single_of_mem (by rw [hroles, hrest.1]; simp)
        have hxs : xs = [] := by
          have hlength := congrArg List.length hroles
          simp [Token.roles] at hlength
          exact List.eq_nil_of_length_eq_zero (by omega)
        exact ⟨[], ts, rfl, hxs.symm⟩

/-- Tokens have as many characters as roles. -/
theorem length_flatMap_roles (ts : List Token) :
    (ts.flatMap Token.roles).length = (textOf ts).length := by
  rw [textOf, List.length_flatMap, List.length_flatMap]
  simp

/-- The reader finds the end of a literal where its tokens are closed. -/
theorem closeIndex_flatMap_iff {opening : Token} (hopening : opening.value = 1) :
    closeIndex 0 (ts.flatMap Token.roles) = some n ↔
      ∃ inner closing back, ts = inner ++ closing :: back ∧ (textOf inner).length = n ∧
        Closes (opening :: (inner ++ [closing])) := by
  rw [closeIndex_eq_some_iff]
  constructor
  · rintro ⟨xs, c, ys, hroles, hlength, hdepth, hc⟩
    obtain ⟨inner, back, rfl, rfl⟩ := exists_single_of_roles hroles
    exact ⟨inner, .single c, back, rfl, by rw [← hlength, length_flatMap_roles],
      (closes_iff hopening).mpr ⟨hdepth, c, rfl, hc⟩⟩
  · rintro ⟨inner, closing, back, rfl, hlength, hcloses⟩
    obtain ⟨hdepth, c, rfl, hc⟩ := (closes_iff hopening).mp hcloses
    exact ⟨inner.flatMap Token.roles, c, back.flatMap Token.roles,
      by simp [List.flatMap_append, List.flatMap_cons, Token.roles],
      by rw [length_flatMap_roles, hlength], hdepth, hc⟩

/-- Where the depth has returned to zero it has done so for the first time. -/
theorem exists_closes {inside : List Token} (back : List Token) (hne : inside ≠ [])
    (hdepth : depth inside = 0) :
    ∃ first rest, inside ++ back = first ++ rest ∧ first ≠ [] ∧ Closes first := by
  -- the shortest such beginning is the one that closes
  induction hn : inside.length using Nat.strongRecOn generalizing inside back with
  | ind n ih =>
    by_cases hfirst : ∃ front rest, inside = front ++ rest ∧ front ≠ [] ∧ rest ≠ [] ∧ depth front = 0
    · obtain ⟨front, rest, rfl, hfront, hrest, hzero⟩ := hfirst
      have hlt : front.length < n := by
        have hpos := List.length_pos_of_ne_nil hrest
        rw [List.length_append] at hn
        omega
      rw [List.append_assoc]
      exact ih _ hlt _ hfront hzero rfl
    · exact ⟨inside, back, rfl, hne, hdepth, fun front rest heq hfront hrest hzero =>
        hfirst ⟨front, rest, heq, hfront, hrest, hzero⟩⟩

/-- The reader finds no end of a literal exactly if its tokens are never closed. -/
theorem closeIndex_flatMap_eq_none_iff {opening : Token} (hopening : opening.value = 1) :
    closeIndex 0 (ts.flatMap Token.roles) = none ↔
      ∀ inside back, opening :: ts = inside ++ back → inside ≠ [] → depth inside ≠ 0 := by
  constructor
  · intro hnone inside back heq hne hzero
    obtain ⟨first, rest, hsplit, hfirst, hcloses⟩ := exists_closes back hne hzero
    rw [← heq] at hsplit
    obtain ⟨t, first, rfl⟩ := List.exists_cons_of_ne_nil hfirst
    rw [List.cons_append, List.cons.injEq] at hsplit
    obtain ⟨rfl, rfl⟩ := hsplit
    -- the bracket alone is not closed
    have hmore : first ≠ [] := by
      rintro rfl
      have hdepth := hcloses.depth
      simp [hopening] at hdepth
    obtain ⟨inner, closing, rfl⟩ : ∃ inner closing, first = inner ++ [closing] :=
      ⟨_, _, (List.dropLast_concat_getLast hmore).symm⟩
    have hsome : closeIndex 0 ((inner ++ [closing] ++ rest).flatMap Token.roles) =
        some (textOf inner).length :=
      (closeIndex_flatMap_iff hopening).mpr ⟨inner, closing, rest, by simp, rfl, hcloses⟩
    rw [hnone] at hsome
    cases hsome
  · intro hnever
    cases hclose : closeIndex 0 (ts.flatMap Token.roles) with
    | none => rfl
    | some n =>
      obtain ⟨inner, closing, back, rfl, -, hcloses⟩ := (closeIndex_flatMap_iff hopening).mp hclose
      exact absurd hcloses.depth
        (hnever (opening :: (inner ++ [closing])) back (by simp) (List.cons_ne_nil _ _))

end Depth

section Content

variable {ts : List Token}

/-- Nothing is counted in a comment or a blank. -/
theorem Token.isCounted_of_isTrivia {t : Token} (h : t.isTrivia = true) {r : Char × Role}
    (hr : r ∈ t.roles) : isCounted r = false := by
  cases t with
  | comment body =>
    simp only [Token.roles, List.mem_cons, List.mem_map] at hr
    obtain rfl | ⟨c, -, rfl⟩ := hr <;> rfl
  | string => exact absurd h (by simp [Token.isTrivia])
  | single c =>
    obtain rfl : r = (c, .code) := by simpa [Token.roles] using hr
    simpa [isCounted, Token.isTrivia] using h

/-- The last character of any other token is counted, unless the token is a string that is not
closed. -/
theorem Token.exists_isCounted {t : Token} (h : t.isTrivia = false)
    (hclosed : ∀ mark body, t ≠ .string mark body false) :
    ∃ rs r, t.roles = rs ++ [r] ∧ isCounted r = true := by
  cases t with
  | comment body => exact absurd h (by simp [Token.isTrivia])
  | string mark body closed =>
    cases closed with
    | false => exact absurd rfl (hclosed mark body)
    | true => exact ⟨(mark, .quoteStart) :: body.map (·, .quoted), (mark, .quoteEnd), rfl, rfl⟩
  | single c => exact ⟨[], (c, .code), rfl, by simpa [isCounted, Token.isTrivia] using h⟩

/-- Tokens with closed strings end with comments and blanks, behind a token that is content. The
character that is counted last is the last one of that token. -/
theorem exists_gap (hclosed : ∀ mark body, .string mark body false ∉ ts) (index : ℕ) :
    ∃ body gap, ts = body ++ gap ∧ (∀ t ∈ gap, t.isTrivia = true) ∧
      (lastCounted index none (ts.flatMap Token.roles) = none ∧ body = [] ∧ content ts = [] ∨
        ∃ i c, lastCounted index none (ts.flatMap Token.roles) = some (i, c) ∧
          i + 1 = index + (textOf body).length ∧ (content ts).getLast? = some c) := by
  induction ts using List.reverseRecOn with
  | nil => exact ⟨[], [], rfl, by simp, .inl ⟨rfl, rfl, rfl⟩⟩
  | append_singleton ts t ih =>
    have hroles : (ts ++ [t]).flatMap Token.roles = ts.flatMap Token.roles ++ t.roles := by simp
    cases ht : t.isTrivia with
    | true =>
      obtain ⟨body, gap, rfl, hgap, hlast⟩ :=
        ih fun mark body hmem => hclosed mark body (List.mem_append_left _ hmem)
      have hcontent : content (body ++ gap ++ [t]) = content (body ++ gap) := by
        simp [content, List.filter_append, ht]
      refine ⟨body, gap ++ [t], by simp, ?_, ?_⟩
      · intro t' ht'
        rcases List.mem_append.mp ht' with hmem | hmem
        · exact hgap t' hmem
        · rw [List.mem_singleton.mp hmem, ht]
      · rwa [hroles, lastCounted_append,
          lastCounted_of_not_isCounted _ _ fun r => Token.isCounted_of_isTrivia ht, hcontent]
    | false =>
      obtain ⟨rs, r, hrs, hr⟩ := Token.exists_isCounted ht fun mark body heq =>
        hclosed mark body (by simp [heq])
      have htext : t.text = rs.map Prod.fst ++ [r.1] := by
        rw [← t.map_fst_roles, hrs, List.map_append, List.map_singleton]
      refine ⟨ts ++ [t], [], (List.append_nil _).symm, by simp,
        .inr ⟨index + (ts.flatMap Token.roles ++ rs).length, r.1, ?_, ?_, ?_⟩⟩
      · rw [hroles, hrs, ← List.append_assoc, lastCounted_append, lastCounted, if_pos hr, lastCounted]
      · rw [List.length_append, length_flatMap_roles, textOf_append, textOf_cons, textOf_nil,
          List.append_nil, htext]
        simp only [List.length_append, List.length_map, List.length_singleton]
        omega
      · simp [content, List.filter_append, ht, htext]

end Content

end AppScaffold.Script
