import AppScaffold.Proofs.Script.Reading
import AppScaffold.Script.Anchor
import Mathlib.Data.List.Basic
import Mathlib.Tactic.Common

/-!
# The tokens of a script

A script is a sequence of comments, strings and single characters. A comment ends before the end of its
line, or with a star and a slash; a string ends with the quote that opens it, a backslash taking the
next character with it; what is never closed runs to the end of the script. Reading the script
character by character gives each token the roles that it has on its own, and the places in code are
those that are not inside a token.
-/

namespace AppScaffold.Script

/-- A token of a script. -/
inductive Token where
  /-- A slash and what follows it in a comment. -/
  | comment (body : List Char)
  /-- A quote, what stands in the string, and whether a second quote closes it. -/
  | string (mark : Char) (body : List Char) (closed : Bool)
  /-- Any other character. -/
  | single (c : Char)
deriving DecidableEq

namespace Token

/-- The characters of a token. -/
def text : Token → List Char
  | comment body => '/' :: body
  | string mark body closed => mark :: (body ++ if closed then [mark] else [])
  | single c => [c]

/-- The characters of a token with their roles. -/
def roles : Token → List (Char × Role)
  | comment body => ('/', .commentStart) :: body.map (·, .comment)
  | string mark body closed =>
    (mark, .quoteStart) :: (body.map (·, .quoted) ++ if closed then [(mark, .quoteEnd)] else [])
  | single c => [(c, .code)]

/-- A token has a character. -/
theorem text_ne_nil (t : Token) : t.text ≠ [] := by cases t <;> exact List.cons_ne_nil _ _

/-- The roles of a token are those of its characters. -/
theorem map_fst_roles (t : Token) : t.roles.map Prod.fst = t.text := by
  cases t with
  | string mark body closed => cases closed <;> simp [roles, text, Function.comp_def]
  | _ => simp [roles, text, Function.comp_def]

/-- Each character of a token has one role. -/
@[simp] theorem length_roles (t : Token) : t.roles.length = t.text.length := by
  rw [← map_fst_roles, List.length_map]

/-- The first character of a token, and no other, has code or nothing before it. -/
theorem isBoundary_roles (t : Token) :
    ∃ r rs, t.roles = r :: rs ∧ r.2.isBoundary = true ∧ ∀ r ∈ rs, r.2.isBoundary = false := by
  cases t with
  | comment body => exact ⟨_, _, rfl, rfl, by simp [Role.isBoundary]⟩
  | string mark body closed =>
    refine ⟨_, _, rfl, rfl, ?_⟩
    cases closed <;> simp +contextual [Role.isBoundary, or_imp]
  | single c => exact ⟨_, _, rfl, rfl, by simp⟩

end Token

/-- The characters of some tokens. -/
def textOf (ts : List Token) : List Char := ts.flatMap Token.text

@[simp] theorem textOf_nil : textOf [] = [] := rfl

@[simp] theorem textOf_cons (t : Token) (ts : List Token) : textOf (t :: ts) = t.text ++ textOf ts :=
  rfl

@[simp] theorem textOf_append (ts us : List Token) : textOf (ts ++ us) = textOf ts ++ textOf us :=
  List.flatMap_append

/-- Single characters make up the text that they spell. -/
@[simp] theorem textOf_map_single (m : List Char) : textOf (m.map Token.single) = m := by
  simp [textOf, List.flatMap_map, Token.text]

/-- What a block comment takes behind the star that opens it, and what follows the comment. -/
def blockBody : List Char → List Char × List Char
  | [] => ([], [])
  | '*' :: '/' :: cs => (['*', '/'], cs)
  | c :: cs => (c :: (blockBody cs).1, (blockBody cs).2)

/-- What stands in a string behind its first quote, whether it is closed, and what follows it. -/
def stringBody (mark : Char) : List Char → List Char × Bool × List Char
  | [] => ([], false, [])
  | '\\' :: c :: cs => ('\\' :: c :: (stringBody mark cs).1, (stringBody mark cs).2)
  | c :: cs =>
    if c = mark then ([], true, cs) else (c :: (stringBody mark cs).1, (stringBody mark cs).2)

/-- The token that begins with a character, and what follows it. -/
def firstToken (c : Char) (cs : List Char) : Token × List Char :=
  if c = '/' ∧ cs.head? = some '/' then
    (.comment (cs.takeWhile (· ≠ '\n')), cs.dropWhile (· ≠ '\n'))
  else if c = '/' ∧ cs.head? = some '*' then
    (.comment ('*' :: (blockBody cs.tail).1), (blockBody cs.tail).2)
  else if isQuote c then
    (.string c (stringBody c cs).1 (stringBody c cs).2.1, (stringBody c cs).2.2)
  else (.single c, cs)

/-- A block comment and what follows it make up the script. -/
theorem blockBody_append (cs : List Char) : (blockBody cs).1 ++ (blockBody cs).2 = cs := by
  fun_induction blockBody cs with
  | case1 => rfl
  | case2 cs => rfl
  | case3 c cs _ ih => rw [List.cons_append, ih]

/-- A string and what follows it make up the script. -/
theorem stringBody_append (mark : Char) (cs : List Char) :
    (stringBody mark cs).1 ++ ((if (stringBody mark cs).2.1 then [mark] else []) ++
      (stringBody mark cs).2.2) = cs := by
  fun_induction stringBody mark cs with
  | case1 => rfl
  | case2 c cs ih => rw [List.cons_append, List.cons_append, ih]
  | case3 cs => rfl
  | case4 c cs _ _ ih => rw [List.cons_append, ih]

/-- A token and what follows it make up the script. -/
theorem text_firstToken (c : Char) (cs : List Char) :
    (firstToken c cs).1.text ++ (firstToken c cs).2 = c :: cs := by
  unfold firstToken
  split_ifs with hline hblock hquote
  · rw [Token.text, hline.1, List.cons_append, List.takeWhile_append_dropWhile]
  · have hcs : cs = '*' :: cs.tail := (List.cons_head?_tail hblock.2).symm
    rw [Token.text, hblock.1, List.cons_append, List.cons_append, blockBody_append, ← hcs]
  · rw [Token.text, List.cons_append, List.append_assoc, stringBody_append]
  · rfl

/-- What follows a token is shorter than the script. -/
theorem length_firstToken (c : Char) (cs : List Char) :
    (firstToken c cs).2.length < (c :: cs).length := by
  have hne := (firstToken c cs).1.text_ne_nil
  rw [← text_firstToken c cs, List.length_append]
  exact Nat.lt_add_of_pos_left (List.length_pos_of_ne_nil hne)

/-- The tokens of a script. -/
def tokens : List Char → List Token
  | [] => []
  | c :: cs => (firstToken c cs).1 :: tokens (firstToken c cs).2
termination_by cs => cs.length
decreasing_by exact length_firstToken c cs

/-- The tokens of a script make it up. -/
@[simp] theorem textOf_tokens (cs : List Char) : textOf (tokens cs) = cs := by
  fun_induction tokens cs with
  | case1 => rfl
  | case2 c cs ih => rw [textOf_cons, ih, text_firstToken]

/-- From the end of a token on, the tokens of a script are those of its rest. -/
theorem tokens_of_append {front back : List Token} {cs : List Char} (h : tokens cs = front ++ back) :
    tokens (textOf back) = back := by
  induction front generalizing cs with
  | nil =>
    rw [List.nil_append] at h
    rw [← h, textOf_tokens]
  | cons t front ih =>
    cases cs with
    | nil => simp [tokens] at h
    | cons c cs =>
      rw [tokens, List.cons_append, List.cons.injEq] at h
      exact ih h.2

/-- Characters that are neither quotes nor slashes are tokens of their own. -/
theorem tokens_plain {m : List Char} (hm : ∀ c ∈ m, isPlain c = true) (cs : List Char) :
    tokens (m ++ cs) = m.map Token.single ++ tokens cs := by
  induction m with
  | nil => rfl
  | cons c m ih =>
    have hc := hm c List.mem_cons_self
    simp only [isPlain, Bool.and_eq_true, Bool.not_eq_true', bne_iff_ne] at hc
    have hfirst : firstToken c (m ++ cs) = (.single c, m ++ cs) := by
      simp [firstToken, hc.1, hc.2]
    rw [List.cons_append, tokens, hfirst, ih fun d hd => hm d (List.mem_cons_of_mem _ hd)]
    rfl

/-- A string that is not closed runs to the end. -/
theorem stringBody_of_unclosed {mark : Char} {cs : List Char} (h : (stringBody mark cs).2.1 = false) :
    (stringBody mark cs).2.2 = [] := by
  fun_induction stringBody mark cs with
  | case1 => rfl
  | case2 c cs ih => exact ih h
  | case3 cs => exact absurd h (by simp)
  | case4 c cs _ _ ih => exact ih h

/-- Nothing follows a string that is not closed. -/
theorem firstToken_of_unclosed {c mark : Char} {body cs : List Char}
    (h : (firstToken c cs).1 = .string mark body false) : (firstToken c cs).2 = [] := by
  unfold firstToken at h ⊢
  split_ifs at h ⊢
  rw [Token.string.injEq] at h
  exact stringBody_of_unclosed h.2.2

/-- Only the last token of a script can be a string that is not closed. -/
theorem eq_nil_of_unclosed {front back : List Token} {mark : Char} {body cs : List Char}
    (h : tokens cs = front ++ .string mark body false :: back) : back = [] := by
  have htokens := tokens_of_append h
  rw [textOf_cons, Token.text, List.cons_append, tokens, List.cons.injEq] at htokens
  rw [← htokens.2, firstToken_of_unclosed htokens.1, tokens]

section Roles

/-- A comment that ends with its line is read up to there. -/
theorem roles_line (cs : List Char) :
    roles .line cs =
      (cs.takeWhile (· ≠ '\n')).map (·, .comment) ++ roles .code (cs.dropWhile (· ≠ '\n')) := by
  induction cs with
  | nil => rfl
  | cons c cs ih =>
    by_cases hc : c = '\n'
    · subst hc
      simp [roles, Mode.step, isQuote]
    · simp [roles, Mode.step, hc, ih]

/-- A block comment is read up to the star and the slash that close it. -/
theorem roles_block (cs : List Char) :
    roles .block cs = (blockBody cs).1.map (·, .comment) ++ roles .code (blockBody cs).2 := by
  fun_induction blockBody cs with
  | case1 => rfl
  | case2 cs => simp [roles, Mode.step]
  | case3 c cs hclose ih =>
    have hstep : (Mode.block.step c cs.head?) = (.comment, .block) := by
      have hnot : ¬(c = '*' ∧ cs.head? = some '/') := by
        rintro ⟨rfl, hhead⟩
        exact hclose _ rfl (List.cons_head?_tail hhead).symm
      simp [Mode.step, hnot]
    rw [roles, hstep]
    simp [ih]

/-- A string is read up to the quote that closes it. -/
theorem roles_quote {mark : Char} (hmark : isQuote mark = true) (cs : List Char) :
    roles (.quote mark) cs =
      (stringBody mark cs).1.map (·, .quoted) ++
        ((if (stringBody mark cs).2.1 then [(mark, .quoteEnd)] else []) ++
          roles .code (stringBody mark cs).2.2) := by
  have hne : mark ≠ '\\' := by
    rintro rfl
    exact absurd hmark (by decide)
  fun_induction stringBody mark cs with
  | case1 => rfl
  | case2 c cs ih => simp [roles, Mode.step, ih]
  | case3 cs => simp [roles, Mode.step, hne]
  | case4 c cs hescape hc ih =>
    by_cases hback : c = '\\'
    · subst hback
      cases cs with
      | nil => simp [roles, Mode.step, stringBody]
      | cons d cs => exact absurd rfl (hescape d cs rfl)
    · simp [roles, Mode.step, hback, hc, ih]

/-- A token is read as it is on its own, and then the rest is read. -/
theorem roles_firstToken (c : Char) (cs : List Char) :
    roles .code (c :: cs) = (firstToken c cs).1.roles ++ roles .code (firstToken c cs).2 := by
  unfold firstToken
  split_ifs with hline hblock hquote
  · rw [roles]
    simp [Mode.step, hline, roles_line, Token.roles]
  · have hcs : cs = '*' :: cs.tail := (List.cons_head?_tail hblock.2).symm
    rw [hcs]
    simp [roles, Mode.step, hblock.1, roles_block, Token.roles]
  · rw [roles]
    simp [Mode.step, hline, hblock, hquote, roles_quote, Token.roles]
  · rw [roles]
    simp [Mode.step, hline, hblock, hquote, Token.roles]

/-- A script is read token by token. -/
theorem roles_eq_flatMap (cs : List Char) : roles .code cs = (tokens cs).flatMap Token.roles := by
  fun_induction tokens cs with
  | case1 => rfl
  | case2 c cs ih => rw [roles_firstToken, ih, List.flatMap_cons]

end Roles

section Places

variable {t : Token} {ts : List Token} {i : ℕ}

/-- The place is strictly inside one of the tokens. -/
def Inside (ts : List Token) (i : ℕ) : Prop :=
  ∃ front t back, ts = front ++ t :: back ∧
    (textOf front).length < i ∧ i < (textOf front).length + t.text.length

/-- The place is in code: it is not strictly inside a token of the script. -/
def InCode (cs : List Char) (i : ℕ) : Prop := ¬Inside (tokens cs) i

/-- A place is inside the first token, or behind it inside one of the others. -/
theorem inside_cons_iff : Inside (t :: ts) i ↔
    0 < i ∧ i < t.text.length ∨ t.text.length ≤ i ∧ Inside ts (i - t.text.length) := by
  constructor
  · rintro ⟨_ | ⟨first, front⟩, u, back, heq, hlow, hhigh⟩
    · cases heq
      rw [textOf_nil, List.length_nil] at hlow hhigh
      exact .inl ⟨hlow, by omega⟩
    · cases heq
      simp only [textOf_cons, List.length_append] at hlow hhigh
      exact .inr ⟨by omega, front, u, back, rfl, by omega, by omega⟩
  · rintro (⟨hlow, hhigh⟩ | ⟨hle, front, u, back, rfl, hlow, hhigh⟩)
    · exact ⟨[], t, ts, rfl, by simpa using hlow, by simpa using hhigh⟩
    · refine ⟨t :: front, u, back, rfl, ?_, ?_⟩ <;>
        simp only [textOf_cons, List.length_append] <;> omega

/-- Where no token is cut the tokens are divided. -/
theorem exists_append_of_not_inside (hi : i ≤ (textOf ts).length) (h : ¬Inside ts i) :
    ∃ front back, ts = front ++ back ∧ (textOf front).length = i := by
  induction ts generalizing i with
  | nil => exact ⟨[], [], rfl, (Nat.le_zero.mp hi).symm⟩
  | cons t ts ih =>
    rw [inside_cons_iff, not_or, not_and, not_and] at h
    rcases Nat.eq_zero_or_pos i with rfl | hpos
    · exact ⟨[], t :: ts, rfl, rfl⟩
    · have hle : t.text.length ≤ i := Nat.le_of_not_lt (h.1 hpos)
      rw [textOf_cons, List.length_append] at hi
      obtain ⟨front, back, rfl, hfront⟩ := ih (by omega) (h.2 hle)
      exact ⟨t :: front, back, rfl, by rw [textOf_cons, List.length_append]; omega⟩

/-- Where tokens are divided no token is cut. -/
theorem not_inside_of_append (front back : List Token) :
    ¬Inside (front ++ back) (textOf front).length := by
  induction front with
  | nil => rintro ⟨_, _, _, -, hlow, -⟩; exact absurd hlow (Nat.not_lt_zero _)
  | cons t front ih =>
    rw [List.cons_append, inside_cons_iff, textOf_cons, List.length_append, Nat.add_sub_cancel_left]
    rintro (⟨-, hlt⟩ | ⟨-, hinside⟩)
    · omega
    · exact ih hinside

/-- A place in code divides the tokens of the script. -/
theorem InCode.exists_append {cs : List Char} (h : InCode cs i) (hi : i ≤ cs.length) :
    ∃ front back, tokens cs = front ++ back ∧ (textOf front).length = i :=
  exists_append_of_not_inside (by rwa [textOf_tokens]) h

/-- Where the tokens of a script are divided there is code. -/
theorem inCode_of_append {cs : List Char} {front back : List Token}
    (h : tokens cs = front ++ back) : InCode cs (textOf front).length := by
  rw [InCode, h]
  exact not_inside_of_append front back

/-- The role of the character at a place tells whether the place is inside a token. -/
theorem isBoundary_getElem?_iff (ts : List Token) (i : ℕ) :
    ((ts.flatMap Token.roles)[i]?.all fun r => r.2.isBoundary) = true ↔ ¬Inside ts i := by
  induction ts generalizing i with
  | nil =>
    have hno : ¬Inside [] i := by
      rintro ⟨front, t, back, heq, -⟩
      simp at heq
    simp [hno]
  | cons t ts ih =>
    obtain ⟨r, rs, hroles, hfirst, hrest⟩ := t.isBoundary_roles
    have hlength : t.text.length = rs.length + 1 := by
      rw [← Token.length_roles, hroles, List.length_cons]
    rw [inside_cons_iff, List.flatMap_cons]
    by_cases hi : i < t.text.length
    · rw [List.getElem?_append_left (by rwa [Token.length_roles]), hroles]
      cases i with
      | zero => simp [hfirst, hlength]
      | succ i =>
        have hi' : i < rs.length := by omega
        rw [List.getElem?_cons_succ, List.getElem?_eq_getElem hi']
        simp [hrest _ (List.getElem_mem hi'), hi]
    · have hle : t.text.length ≤ i := Nat.le_of_not_lt hi
      rw [List.getElem?_append_right (by rwa [Token.length_roles]), Token.length_roles, ih]
      simp [hi, hle]

/-- The reader and the tokens agree on which places are in code. -/
theorem isCodeIndex_iff (cs : List Char) (i : ℕ) : isCodeIndex cs i = true ↔ InCode cs i := by
  rw [InCode, ← isBoundary_getElem?_iff, ← roles_eq_flatMap, isCodeIndex]
  cases (roles .code cs)[i]? <;> rfl

end Places

end AppScaffold.Script
