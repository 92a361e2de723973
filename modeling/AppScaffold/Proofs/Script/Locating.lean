import AppScaffold.Proofs.Script.LiteralTokens
import Mathlib.Data.List.Basic
import Mathlib.Tactic.Common

/-!
# The place that is located

The first declaration in code ends with the bracket that opens a literal, which is a token of its own.
If the tokens from there on are closed again, the place for an entry lies between them, and only comments
and blanks stand between the place and the token that closes the literal.
-/

namespace AppScaffold.Script

/-- The tokens of a script, divided at the bracket with which the first declaration in code ends. -/
structure Opens (parts : List Part) (cs : List Char) (front : List Token) (opening : Token)
    (rest : List Token) : Prop where
  /-- The tokens are those of the script. -/
  divides : tokens cs = front ++ opening :: rest
  /-- The bracket is the last character of the first declaration. -/
  first : ∃ i m, Begins parts cs i ∧ (∀ j < i, ¬Begins parts cs j) ∧ Fits parts m ∧
    m <+: cs.drop i ∧ (textOf front).length + 1 = i + m.length

section Opens

variable {mark : Char} {parts : List Part} {cs : List Char} {front rest : List Token}
  {opening : Token}

/-- A declaration is spelled without quotes and slashes, its bracket included. -/
theorem IsDeclaration.isPlain (hd : IsDeclaration mark parts) {m : List Char} (hm : Fits parts m) :
    ∀ c ∈ m, Script.isPlain c = true := by
  obtain ⟨m', rfl, hplain, -⟩ := hd.fits m hm
  intro c hc
  rcases List.mem_append.mp hc with hc | hc
  · exact isPlain_of_isDeclarationCharacter (hplain c hc)
  · obtain rfl := List.mem_singleton.mp hc
    rcases hd.opens with rfl | rfl <;> decide

/-- At one place at most one text of a declaration fits. -/
theorem IsDeclaration.eq_of_prefix (hd : IsDeclaration mark parts) {m m' cs : List Char}
    (hm : Fits parts m) (hm' : Fits parts m') (h : m <+: cs) (h' : m' <+: cs) : m = m' := by
  have hshort : ∀ {m m' : List Char}, Fits parts m → Fits parts m' → m <+: cs → m' <+: cs →
      m.length ≤ m'.length := by
    rintro m m' hm hm' ⟨r, hr⟩ ⟨r', hr'⟩
    obtain ⟨x, rfl, -⟩ := hd.delimited m' hm'
    have heq : x ++ mark :: r' = m ++ r := by rw [hr, ← hr', List.append_assoc, List.singleton_append]
    exact (hd.delimited.begins hm heq).length_le
  have hlength := Nat.le_antisymm (hshort hm hm' h h') (hshort hm' hm h' h)
  exact (List.prefix_of_prefix_length_le h h' hlength.le).eq_of_length hlength

/-- If a declaration begins in code the first one ends with a bracket that is a token. -/
theorem IsDeclaration.exists_opens (hd : IsDeclaration mark parts) {i : ℕ} (h : Begins parts cs i) :
    ∃ front rest, Opens parts cs front (.single mark) rest := by
  obtain ⟨d, h⟩ := hd.exists_findDeclaration h
  obtain ⟨hbegins, hearlier⟩ := hd.begins_of_findDeclaration h
  obtain ⟨a, m, r, rfl, hm, rfl, -⟩ := hd.split h
  obtain ⟨m', rfl, -⟩ := hd.fits m hm
  obtain ⟨front, back, htokens, hlength⟩ := hbegins.code.exists_append (by simp)
  have htext : textOf front ++ textOf back = a ++ (m' ++ [mark] ++ r) := by
    rw [← textOf_append, ← htokens, textOf_tokens]
  obtain ⟨rfl, hback⟩ := List.append_inj htext hlength
  have hrest : back = (m' ++ [mark]).map Token.single ++ tokens r := by
    rw [← tokens_of_append htokens, hback, tokens_plain (hd.isPlain hm)]
  refine ⟨front ++ m'.map Token.single, tokens r, ?_, _, _, hbegins, hearlier, hm, by simp, ?_⟩
  · rw [htokens, hrest]
    simp
  · simp [Nat.add_assoc]

/-- Where the tokens are divided at the end of the first declaration the search finds it. -/
theorem Opens.exists_findDeclaration (h : Opens parts cs front opening rest)
    (hd : IsDeclaration mark parts) :
    opening = .single mark ∧ ∃ d, findDeclaration cs parts = some d ∧
      d.stop = (textOf front).length + 1 ∧ roles .code (cs.drop d.stop) = rest.flatMap Token.roles := by
  obtain ⟨htokens, i, m, hbegins, hearlier, hm, hprefix, hstop⟩ := h
  obtain ⟨d, hfind⟩ := hd.exists_findDeclaration hbegins
  obtain ⟨hfound, hfirst⟩ := hd.begins_of_findDeclaration hfind
  have hi : d.start = i := by
    rcases Nat.lt_trichotomy d.start i with hlt | heq | hlt
    · exact absurd hfound (hearlier _ hlt)
    · exact heq
    · exact absurd hbegins (hfirst _ hlt)
  obtain ⟨a, m', r, hcs, hm', rfl, -⟩ := hd.split hfind
  obtain rfl : a.length = i := hi
  obtain rfl : m = m' := hd.eq_of_prefix hm hm' hprefix (by simp [hcs])
  obtain ⟨x, rfl, -⟩ := hd.fits m hm
  -- the script, cut before the bracket in two ways
  have htext : textOf front ++ textOf (opening :: rest) = (a ++ x) ++ mark :: r := by
    rw [← textOf_append, ← htokens, textOf_tokens, hcs]
    simp
  have hlength : (textOf front).length = (a ++ x).length := by
    simp only [List.length_append, List.length_singleton] at hstop ⊢
    omega
  obtain ⟨-, hback⟩ := List.append_inj htext hlength
  have hmark : ∀ c ∈ [mark], Script.isPlain c = true := fun c hc =>
    hd.isPlain hm c (List.mem_append_right x hc)
  have hsplit : opening :: rest = .single mark :: tokens r := by
    rw [← tokens_of_append htokens, hback]
    exact tokens_plain hmark r
  rw [List.cons.injEq] at hsplit
  obtain ⟨rfl, rfl⟩ := hsplit
  refine ⟨rfl, _, hfind, hstop.symm, ?_⟩
  rw [roles_eq_flatMap, hcs, ← List.append_assoc, List.drop_left' (by simp)]

end Opens

section Locate

variable {mark : Char} {parts : List Part} {anchor : Anchor} {cs : List Char}
  {front inside back rest : List Token} {opening closing : Token} {point : InsertionPoint}

/-- A bracket that opens a literal opens one bracket. -/
theorem IsDeclaration.value_single (hd : IsDeclaration mark parts) :
    (Token.single mark).value = 1 := by
  rcases hd.opens with rfl | rfl <;> decide

/-- The place in a literal with the given last counted character, `start` being the place behind the
bracket that opens it. -/
def pointBehind (start : ℕ) : Option (ℕ × Char) → InsertionPoint
  | some (index, c) => ⟨index + 1, c != ','⟩
  | none => ⟨start, false⟩

/-- The place is searched from the end of the first declaration on, token by token. -/
theorem Opens.locate_eq (hparts : anchor.parts = some parts) (hd : IsDeclaration mark parts)
    (h : Opens parts cs front opening rest) :
    anchor.locate cs = (closeIndex 0 (rest.flatMap Token.roles)).map fun n =>
      pointBehind ((textOf front).length + 1)
        (lastCounted ((textOf front).length + 1) none ((rest.flatMap Token.roles).take n)) := by
  obtain ⟨-, d, hfind, hstop, hroles⟩ := h.exists_findDeclaration hd
  rw [hstop] at hroles
  simp only [Anchor.locate, hparts, hfind, Option.bind_eq_bind, Option.bind_some, hstop, hroles,
    lastSignificant_eq]
  cases closeIndex 0 (rest.flatMap Token.roles) with
  | none => rfl
  | some n =>
    simp only [Option.map_some, Option.bind_some]
    cases lastCounted ((textOf front).length + 1) none ((rest.flatMap Token.roles).take n) <;> rfl

/-- There is no place exactly if the bracket is never closed. -/
theorem Opens.locate_eq_none_iff (hparts : anchor.parts = some parts) (hd : IsDeclaration mark parts)
    (h : Opens parts cs front opening rest) :
    anchor.locate cs = none ↔
      ∀ inside back, opening :: rest = inside ++ back → inside ≠ [] → depth inside ≠ 0 := by
  rw [h.locate_eq hparts hd, Option.map_eq_none_iff, (h.exists_findDeclaration hd).1]
  exact closeIndex_flatMap_eq_none_iff hd.value_single

/-- Without a declaration in code there is no place. -/
theorem locate_of_not_begins (hparts : anchor.parts = some parts) (hd : IsDeclaration mark parts)
    (h : ∀ i, ¬Begins parts cs i) : anchor.locate cs = none := by
  have hnone := (declarationStart_eq_none_iff hparts hd).mpr h
  simp only [Anchor.declarationStart, hparts, Option.map_eq_none_iff] at hnone
  simp [Anchor.locate, hparts, hnone]

/-- The place is behind the content of the literal, and in front of the comments and blanks that the
literal ends with. -/
structure IsPlace (inside : List Token) (start : ℕ) (point : InsertionPoint) : Prop where
  /-- The place divides the tokens of the literal; only comments and blanks are behind it. -/
  divides : ∃ body gap, inside = body ++ gap ∧ (∀ t ∈ gap, t.isTrivia = true) ∧
    point.index = start + (textOf body).length
  /-- A comma is needed behind content that does not end with one. -/
  separator : point.needsSeparator = true ↔ ∃ c, (content inside).getLast? = some c ∧ c ≠ ','

/-- What is put in for the last counted character is a place in the literal. -/
theorem isPlace_pointBehind (hclosed : ∀ mark body, .string mark body false ∉ inside) (start : ℕ) :
    IsPlace inside start
      (pointBehind start (lastCounted start none (inside.flatMap Token.roles))) := by
  obtain ⟨body, gap, hinside, hgap, ⟨hlast, rfl, hcontent⟩ | ⟨i, c, hlast, hi, hcontent⟩⟩ :=
    exists_gap hclosed start
  · rw [hlast]
    exact ⟨⟨[], gap, hinside, hgap, rfl⟩, by simp [pointBehind, hcontent]⟩
  · rw [hlast]
    exact ⟨⟨body, gap, hinside, hgap, hi⟩, by simp [pointBehind, hcontent]⟩

/-- Where there is a place the bracket is closed, and the place is one in the literal. -/
theorem Opens.exists_closes (hparts : anchor.parts = some parts) (hd : IsDeclaration mark parts)
    (h : Opens parts cs front opening rest) (hlocate : anchor.locate cs = some point) :
    ∃ inside closing back, rest = inside ++ closing :: back ∧
      Closes (opening :: (inside ++ [closing])) ∧
      IsPlace inside ((textOf front).length + 1) point := by
  rw [h.locate_eq hparts hd] at hlocate
  obtain ⟨n, hclose, rfl⟩ := Option.map_eq_some_iff.mp hlocate
  obtain ⟨inside, closing, back, rfl, rfl, hcloses⟩ :=
    (closeIndex_flatMap_iff hd.value_single).mp hclose
  have htake : ((inside ++ closing :: back).flatMap Token.roles).take (textOf inside).length =
      inside.flatMap Token.roles := by
    rw [List.flatMap_append, ← length_flatMap_roles, List.take_left]
  -- a string that is not closed would take the rest of the script
  have hclosed : ∀ mark body, .string mark body false ∉ inside := by
    intro quote body hmem
    obtain ⟨before, after, rfl⟩ := List.append_of_mem hmem
    have hdivides : tokens cs = (front ++ opening :: before) ++ .string quote body false ::
        (after ++ closing :: back) := by simp [h.divides]
    exact absurd (eq_nil_of_unclosed hdivides) (by simp)
  refine ⟨inside, closing, back, rfl, ?_, ?_⟩
  · rw [(h.exists_findDeclaration hd).1]
    exact hcloses
  · rw [htake]
    exact isPlace_pointBehind hclosed _

/-- For an anchor with names a declaration begins at the first place in code where its pattern fits.
There is no place for an entry exactly if there is no such declaration or the bracket that opens its
literal is never closed. Otherwise the place is in code, between that bracket and the one that closes
it, and only comments and blanks stand between the place and the latter; a comma is needed exactly
behind content that does not end with one. -/
theorem locate_tokens (hnamed : anchor.Named) (hparts : anchor.parts = some parts) (cs : List Char) :
    (∀ i, anchor.declarationStart cs = some i ↔ Begins parts cs i ∧ ∀ j < i, ¬Begins parts cs j) ∧
    (anchor.declarationStart cs = none ↔ ∀ i, ¬Begins parts cs i) ∧
    (anchor.locate cs = none ↔ (∀ i, ¬Begins parts cs i) ∨
      ∃ front opening rest, Opens parts cs front opening rest ∧
        ∀ inside back, opening :: rest = inside ++ back → inside ≠ [] → depth inside ≠ 0) ∧
    ∀ point, anchor.locate cs = some point →
      ∃ front opening inside closing back,
        Opens parts cs front opening (inside ++ closing :: back) ∧
        Closes (opening :: (inside ++ [closing])) ∧
        InCode cs point.index ∧
        (textOf (front ++ [opening])).length ≤ point.index ∧
        point.index ≤ (textOf (front ++ opening :: inside)).length ∧
        (∃ body gap, inside = body ++ gap ∧ (∀ t ∈ gap, t.isTrivia = true) ∧
          point.index = (textOf (front ++ opening :: body)).length) ∧
        (point.needsSeparator = true ↔ ∃ c, (content inside).getLast? = some c ∧ c ≠ ',') := by
  obtain ⟨mark, _, hparts', hd⟩ := hnamed.exists_parts
  obtain rfl := Option.some.inj (hparts.symm.trans hparts')
  refine ⟨fun i => declarationStart_eq_some_iff hparts hd, declarationStart_eq_none_iff hparts hd,
    ⟨fun hnone => ?_, ?_⟩, fun point hpoint => ?_⟩
  · by_cases hbegins : ∀ i, ¬Begins parts cs i
    · exact .inl hbegins
    · push Not at hbegins
      obtain ⟨i, hi⟩ := hbegins
      obtain ⟨front, rest, hopens⟩ := hd.exists_opens hi
      exact .inr ⟨front, _, rest, hopens, (hopens.locate_eq_none_iff hparts hd).mp hnone⟩
  · rintro (hbegins | ⟨front, opening, rest, hopens, hnever⟩)
    · exact locate_of_not_begins hparts hd hbegins
    · exact (hopens.locate_eq_none_iff hparts hd).mpr hnever
  · obtain ⟨i, hi⟩ : ∃ i, Begins parts cs i := by
      by_contra hnone
      rw [locate_of_not_begins hparts hd (not_exists.mp hnone)] at hpoint
      cases hpoint
    obtain ⟨front, rest, hopens⟩ := hd.exists_opens hi
    obtain ⟨inside, closing, back, rfl, hcloses, ⟨body, gap, rfl, hgap, hindex⟩, hseparator⟩ :=
      hopens.exists_closes hparts hd hpoint
    have hplace : point.index = (textOf (front ++ .single mark :: body)).length := by
      rw [hindex]
      simp [Token.text]
      omega
    refine ⟨front, _, body ++ gap, closing, back, hopens, hcloses, ?_, ?_, ?_,
      ⟨body, gap, rfl, hgap, hplace⟩, hseparator⟩
    · have hdivides : tokens cs = (front ++ .single mark :: body) ++ (gap ++ closing :: back) := by
        simp [hopens.divides]
      rw [hplace]
      exact inCode_of_append hdivides
    · rw [hplace]
      simp
    · rw [hplace]
      simp

end Locate

/-- One declaration stands in a comment, brackets stand in a string and in a comment, and the entry is
followed by a comment with a comma. -/
theorem locate_tokens_commented :
    (Anchor.arrayLiteral "xs").Named ∧
      (Anchor.arrayLiteral "xs").parts =
        some (Anchor.declarationParts "xs" ++ [.exact "[".toList]) ∧
      (Anchor.arrayLiteral "xs").locate
        "// export const xs = [\nexport const xs = [']' /* ] */, b // ,\n];".toList =
          some ⟨56, true⟩ ∧
      ∃ front opening inside closing back,
        Opens (Anchor.declarationParts "xs" ++ [.exact "[".toList])
          "// export const xs = [\nexport const xs = [']' /* ] */, b // ,\n];".toList
          front opening (inside ++ closing :: back) ∧
        Closes (opening :: (inside ++ [closing])) ∧
        ∃ c, (content inside).getLast? = some c ∧ c ≠ ',' := by
  have hnamed : (Anchor.arrayLiteral "xs").Named := isDeclarationCharacter_of_mem (by decide)
  have hparts : (Anchor.arrayLiteral "xs").parts =
      some (Anchor.declarationParts "xs" ++ [.exact "[".toList]) := by
    decide
  have hlocate : (Anchor.arrayLiteral "xs").locate
      "// export const xs = [\nexport const xs = [']' /* ] */, b // ,\n];".toList =
        some ⟨56, true⟩ := by
    decide +kernel
  obtain ⟨front, opening, inside, closing, back, hopens, hcloses, -, -, -, -, hseparator⟩ :=
    (locate_tokens hnamed hparts _).2.2.2 _ hlocate
  exact ⟨hnamed, hparts, hlocate, front, opening, inside, closing, back, hopens, hcloses,
    hseparator.mp rfl⟩

end AppScaffold.Script
