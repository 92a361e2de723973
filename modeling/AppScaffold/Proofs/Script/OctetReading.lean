import AppScaffold.Proofs.Script.Literal
import AppScaffold.Proofs.Script.OctetTokens
import Mathlib.Data.List.Basic
import Mathlib.Tactic.Common

/-!
# Loops over octets

The two loops of the scan go through a script token by token and never panic. The one tells for each
place between characters whether it is in code, the other finds the last octet of content of a literal,
as the reader does among the characters.
-/

namespace AppScaffold.Script

open Octet

/-- A place inside the first token is in code only if it is at the beginning; behind the token the places
in code are those of what follows. -/
theorem isCodeIndex_firstToken (c : Char) (cs : List Char) (k : ℕ) :
    isCodeIndex (c :: cs) k =
      if k < (firstToken c cs).1.text.length then k == 0
      else isCodeIndex (firstToken c cs).2 (k - (firstToken c cs).1.text.length) := by
  obtain ⟨r, rs, hroles, hfirst, hlater⟩ := (firstToken c cs).1.isBoundary_roles
  have hlength : (firstToken c cs).1.text.length = rs.length + 1 := by
    rw [← Token.length_roles, hroles, List.length_cons]
  rw [isCodeIndex, roles_firstToken, hlength]
  split_ifs with hk
  · rw [List.getElem?_append_left (by rwa [Token.length_roles, hlength]), hroles]
    cases k with
    | zero => simpa using hfirst
    | succ k =>
      have hlt : k < rs.length := Nat.lt_of_succ_lt_succ hk
      have hnot := hlater _ (List.getElem_mem hlt)
      rw [List.getElem?_cons_succ, List.getElem?_eq_getElem hlt]
      simpa using hnot
  · rw [List.getElem?_append_right (by rw [Token.length_roles]; omega), Token.length_roles, hlength]
    rfl

/-- The quote that closes a string is one octet. -/
theorem length_encode_string {mark : Char} (hmark : isQuote mark = true) (body : List Char) :
    (encode (Token.string mark body true).text).length = (encode (mark :: body)).length + 1 := by
  obtain ⟨b, bs, hc⟩ := exists_encodes mark
  obtain rfl := hc.single (isMark_isQuote mark hmark)
  rw [Token.text, if_pos rfl, ← List.cons_append, encode_append, hc.encode_singleton,
    List.length_append, List.length_singleton]

/-- A text with a character has an octet. -/
theorem length_encode_pos {cs : List Char} (h : cs ≠ []) : 0 < (encode cs).length := by
  obtain ⟨c, cs, rfl⟩ := List.exists_cons_of_ne_nil h
  obtain ⟨b, bs, hc⟩ := exists_encodes c
  rw [hc.encode_cons]
  exact Nat.succ_pos _

/-- More characters have more octets. -/
theorem length_encode_take_lt {cs : List Char} {k : ℕ} (hk : k < cs.length) :
    (encode (cs.take k)).length < (encode cs).length := by
  obtain ⟨c, rest, hdrop⟩ :=
    List.exists_cons_of_ne_nil (List.drop_eq_nil_iff.not.mpr (Nat.not_le_of_lt hk))
  obtain ⟨b, bs, hc⟩ := exists_encodes c
  have hsplit := congrArg (fun xs => (encode xs).length) (List.take_append_drop k cs)
  simp only [hdrop, encode_append, hc.encode_cons, List.length_append, List.length_cons] at hsplit
  omega

namespace Octet

variable {bytes bs rest : List UInt8} {i target : ℕ} {cs : List Char}

/-- An item that is not one octet ends where its token ends. -/
theorem stop_of_itemOf {t : Token} {after : List Char} {item : Item} (h : ItemOf i after t item)
    (hdrop : bytes.drop i = encode (t.text ++ after)) (ht : ∀ c, t ≠ .single c) :
    item.stop bytes i = i + (encode t.text).length := by
  have hlength : bytes.length = i + (encode (t.text ++ after)).length := by
    obtain ⟨c, cs, htext⟩ := List.exists_cons_of_ne_nil t.text_ne_nil
    rw [htext, List.cons_append] at hdrop ⊢
    exact length_of_drop hdrop
  cases h with
  | line body => rfl
  | block body => rfl
  | blockOpen body hlast =>
    rw [hlast, List.append_nil] at hlength
    exact hlength
  | string body hquote =>
    rw [length_encode_string hquote]
    rfl
  | stringOpen body hlast =>
    rw [hlast, List.append_nil] at hlength
    exact hlength
  | single => exact absurd rfl (ht _)

section Code

/-- An index is not reached before its item has been looked at. -/
theorem round_codeLoop {item : Item} (hlt : i < target) (hitem : itemAt bytes i = .ok item) :
    (codeLoop bytes target).round i =
      if target < item.stop bytes i then .ok (.done false) else .ok (.again (item.stop bytes i)) := by
  simp only [codeLoop]
  rw [if_pos hlt, bind_of_eq_ok hitem]

/-- Octets with which no character begins are passed. -/
theorem run_codeLoop_pass (hbs : ∀ x ∈ bs, isContinuation x = true) (h : bytes.drop i = bs ++ rest)
    (htarget : i + bs.length ≤ target) :
    (codeLoop bytes target).run i = (codeLoop bytes target).run (i + bs.length) := by
  induction bs generalizing i with
  | nil => rfl
  | cons x bs ih =>
    rw [List.length_cons] at htarget ⊢
    have hround := round_codeLoop (show i < target by omega)
      (itemAt_of_isContinuation (hbs x List.mem_cons_self) h)
    rw [if_neg (by simp only [Item.stop]; omega)] at hround
    rw [Loop.run_again hround, Item.stop, ih (fun y hy => hbs y (List.mem_cons_of_mem _ hy)) (drop_succ h)
      (by omega), Nat.add_assoc, Nat.add_comm 1]

/-- The loop ends with an index that it has reached. -/
theorem run_codeLoop_reached (bytes : List UInt8) (i : ℕ) : (codeLoop bytes i).run i = .ok true := by
  refine Loop.run_done ?_
  simp only [codeLoop]
  rw [if_neg (Nat.lt_irrefl i)]

/-- A place inside a token is not in code. Otherwise the loop goes on behind the token. -/
theorem run_codeLoop_token {t : Token} {after : List Char} {item : Item}
    (hitem : itemAt bytes i = .ok item) (hof : ItemOf i after t item)
    (hdrop : bytes.drop i = encode (t.text ++ after)) {k : ℕ} (hk : 0 < k)
    (htarget : target = i + (encode ((t.text ++ after).take k)).length) :
    (codeLoop bytes target).run i =
      if k < t.text.length then .ok false
      else (codeLoop bytes target).run (i + (encode t.text).length) := by
  have hsome := length_encode_pos t.text_ne_nil
  by_cases hlt : k < t.text.length
  · rw [List.take_append_of_le_length (Nat.le_of_lt hlt)] at htarget
    have hless := length_encode_take_lt hlt
    have hfront := length_encode_pos (show t.text.take k ≠ [] by
      rw [← List.length_pos_iff, List.length_take]
      omega)
    have hlong : ∀ d, t ≠ .single d := by
      rintro d rfl
      exact absurd hlt (Nat.not_lt_of_le hk)
    have hround := round_codeLoop (show i < target by omega) hitem
    rw [stop_of_itemOf hof hdrop hlong, if_pos (by omega)] at hround
    rw [if_pos hlt, Loop.run_done hround]
  rw [List.take_append, List.take_of_length_le (Nat.le_of_not_lt hlt), encode_append,
    List.length_append] at htarget
  have hround := round_codeLoop (show i < target by omega) hitem
  rw [if_neg hlt]
  by_cases hsingle : ∃ d, t = .single d
  · -- the octets of one character are passed one by one
    obtain ⟨d, rfl⟩ := hsingle
    cases hof with
    | single hd =>
      rw [Token.text, List.singleton_append, hd.encode_cons] at hdrop
      rw [Token.text, hd.encode_singleton, List.length_cons] at htarget ⊢
      rw [if_neg (by simp only [Item.stop]; omega)] at hround
      rw [Loop.run_again hround, Item.stop, run_codeLoop_pass hd.later (drop_succ hdrop) (by omega),
        Nat.add_assoc, Nat.add_comm 1]
  · rw [stop_of_itemOf hof hdrop (not_exists.mp hsingle), if_neg (by omega)] at hround
    exact Loop.run_again hround

/-- The loop tells whether a place between characters is in code. -/
theorem run_codeLoop (h : bytes.drop i = encode cs) {k : ℕ} (hk : k ≤ cs.length)
    (htarget : target = i + (encode (cs.take k)).length) :
    (codeLoop bytes target).run i = .ok (isCodeIndex cs k) := by
  induction cs using tokens.induct generalizing i k with
  | case1 =>
    obtain rfl : target = i := by simpa using htarget
    exact run_codeLoop_reached bytes target
  | case2 c cs ih =>
    obtain ⟨item, hitem, hof⟩ := exists_itemAt h
    rw [isCodeIndex_firstToken]
    have htext := text_firstToken c cs
    generalize (firstToken c cs).1 = t at htext hof ⊢
    generalize (firstToken c cs).2 = after at ih htext hof ⊢
    rw [← htext] at h hk htarget
    rcases Nat.eq_zero_or_pos k with rfl | hpos
    · obtain rfl : target = i := by simpa using htarget
      rw [if_pos (List.length_pos_of_ne_nil t.text_ne_nil)]
      exact run_codeLoop_reached bytes target
    rw [run_codeLoop_token hitem hof h hpos htarget]
    split_ifs with hlt
    · rw [beq_false_of_ne (Nat.pos_iff_ne_zero.mp hpos)]
    · rw [encode_append] at h
      rw [List.length_append] at hk
      rw [List.take_append, List.take_of_length_le (Nat.le_of_not_lt hlt), encode_append,
        List.length_append] at htarget
      exact ih (drop_add h) (by omega) (by omega)

/-- The scan tells which places between characters are in code. -/
theorem isCodeOffset_eq {k : ℕ} (hk : k ≤ cs.length) :
    isCodeOffset (encode cs) (Text.octetOffset cs k) = .ok (isCodeIndex cs k) := by
  rw [isCodeOffset, ← length_encode_take]
  exact run_codeLoop rfl hk (Nat.zero_add _).symm

end Code

section Literals

/-- The last octet of the character with an index. -/
def lastOctet (whole : List Char) (counted : ℕ × Char) : ℕ :=
  (encode (whole.take (counted.1 + 1))).length - 1

variable {whole xs : List Char} {opening depth : ℕ} {last : Option (ℕ × Char)}

/-- Nothing counts in comments, and in strings nothing but the quote that closes them. -/
theorem lastSignificant_pass {rs : List (Char × Role)} (h : ∀ r ∈ rs, r.2 ≠ .code ∧ r.2 ≠ .quoteEnd)
    (index : ℕ) (rest : List (Char × Role)) :
    lastSignificant index depth last (rs ++ rest) =
      lastSignificant (index + rs.length) depth last rest := by
  induction rs generalizing index with
  | nil => rfl
  | cons r rs ih =>
    obtain ⟨c, role⟩ := r
    have hr := h _ List.mem_cons_self
    have hskip : lastSignificant index depth last ((c, role) :: (rs ++ rest)) =
        lastSignificant (index + 1) depth last (rs ++ rest) := by
      cases role with
      | code => exact absurd rfl hr.1
      | quoteEnd => exact absurd rfl hr.2
      | _ => rfl
    rw [List.cons_append, hskip, ih fun s hs => h s (List.mem_cons_of_mem _ hs), List.length_cons,
      Nat.add_assoc, Nat.add_comm 1]

/-- Behind octets with which no character begins the last octet of content is the last of them. -/
theorem run_literalLoop_pass (hbs : ∀ x ∈ bs, isContinuation x = true) (h : bytes.drop i = bs ++ rest)
    (hopening : opening < i) :
    (literalLoop bytes opening).run ⟨i, depth, some (i - 1)⟩ =
      (literalLoop bytes opening).run ⟨i + bs.length, depth, some (i + bs.length - 1)⟩ := by
  induction bs generalizing i with
  | nil => rfl
  | cons x bs ih =>
    have hx := hbs x List.mem_cons_self
    have hround : (literalLoop bytes opening).round ⟨i, depth, some (i - 1)⟩ =
        .ok (.again ⟨i + 1, depth, some (i + 1 - 1)⟩) := by
      simp only [literalLoop]
      rw [if_pos (lt_of_drop h), bind_of_eq_ok (itemAt_of_isContinuation hx h)]
      simp only [mark_of_isContinuation hx isMark_isOpening, mark_of_isContinuation hx isMark_isClosing,
        mark_of_isContinuation hx isMark_isAsciiBlank]
      rw [if_neg (by decide), if_neg (by decide), if_pos ⟨by omega, rfl⟩, Nat.add_sub_cancel]
    rw [Loop.run_again hround, ih (fun y hy => hbs y (List.mem_cons_of_mem _ hy)) (drop_succ h)
      (by omega), List.length_cons, Nat.add_assoc, Nat.add_comm 1]

/-- The last octet of a piece of a script. -/
theorem lastOctet_append (m after : List Char) (hwhole : whole = xs ++ (m ++ after)) {n : ℕ}
    (hn : n + 1 = xs.length + m.length) (c : Char) :
    lastOctet whole (n, c) = (encode xs).length + (encode m).length - 1 := by
  rw [lastOctet, hn, hwhole, ← List.append_assoc, ← List.length_append, List.take_left, encode_append,
    List.length_append]

/-- What opens a bracket closes none. -/
theorem isClosing_of_isOpening {c : Char} (h : isOpening c = true) : isClosing c = false := by
  simp only [isOpening, Bool.or_eq_true, beq_iff_eq] at h
  rcases h with (rfl | rfl) | rfl <;> decide

/-- At the first octet of a character of code brackets are counted, and the octet counts unless it is a
blank. -/
theorem round_literalLoop {d : Char} {b : UInt8} (hc : Encodes d b bs)
    (hitem : itemAt bytes i = .ok (.plain b)) (hlt : i < bytes.length) (hopening : opening < i)
    (depth : ℕ) (last : Option ℕ) :
    (literalLoop bytes opening).round ⟨i, depth, last⟩ =
      let last' := if isAsciiBlank d then last else some i
      if isOpening d then .ok (.again ⟨i + 1, depth + 1, last'⟩)
      else if isClosing d then
        if depth = 0 then .error .underflow
        else if depth - 1 = 0 then .ok (.done (some last))
        else .ok (.again ⟨i + 1, depth - 1, last'⟩)
      else .ok (.again ⟨i + 1, depth, last'⟩) := by
  simp only [literalLoop]
  rw [if_pos hlt, bind_of_eq_ok hitem]
  simp only [hc.mark isMark_isOpening, hc.mark isMark_isClosing, hc.mark isMark_isAsciiBlank]
  have hlast : (if i ≠ opening ∧ (!isAsciiBlank d) = true then some i else last) =
      if isAsciiBlank d = true then last else some i := by
    cases isAsciiBlank d with
    | true => simp
    | false => simp [Nat.ne_of_gt hopening]
  rw [hlast]

/-- From an index on, brackets being open, the loop finds the octet of the character that the reader
counts last in what stands there. -/
def Follows (whole : List Char) (opening index place : ℕ) (rest : List Char) : Prop :=
  ∀ (depth : ℕ) (last : Option (ℕ × Char)), depth ≠ 0 →
    (literalLoop (encode whole) opening).run ⟨index, depth, last.map (lastOctet whole)⟩ =
      .ok ((lastSignificant place depth last (roles .code rest)).map (Option.map (lastOctet whole)))

section Single

variable {d : Char} {b : UInt8} {after : List Char}

/-- Behind the first octet of a character that counts the loop goes on behind the character. -/
theorem run_literalLoop_counted (hc : Encodes d b bs)
    (hwhole : whole = xs ++ ((Token.single d).text ++ after)) (hopening : opening < (encode xs).length)
    (hdepth : depth ≠ 0)
    (hnext : Follows whole opening ((encode xs).length + (encode (Token.single d).text).length)
      (xs.length + 1) after) :
    (literalLoop (encode whole) opening).run ⟨(encode xs).length + 1, depth, some (encode xs).length⟩ =
      .ok ((lastSignificant (xs.length + 1) depth (some (xs.length, d)) (roles .code after)).map
        (Option.map (lastOctet whole))) := by
  have hdrop : (encode whole).drop (encode xs).length = b :: (bs ++ encode after) := by
    rw [hwhole, encode_append, List.drop_left, Token.text, List.singleton_append, hc.encode_cons]
  have hsize : (encode (Token.single d).text).length = bs.length + 1 := by
    rw [Token.text, hc.encode_singleton, List.length_cons]
  have hlast : lastOctet whole (xs.length, d) = (encode xs).length + bs.length := by
    rw [lastOctet_append _ after hwhole rfl, hsize]
    rfl
  have hpass : (literalLoop (encode whole) opening).run
      ⟨(encode xs).length + 1, depth, some ((encode xs).length + 1 - 1)⟩ = _ :=
    run_literalLoop_pass hc.later (drop_succ hdrop) (Nat.lt_succ_of_lt hopening)
  have hrest := hnext depth (some (xs.length, d)) hdepth
  rw [Option.map_some, hlast, hsize] at hrest
  rw [Nat.add_sub_cancel] at hpass
  rw [hpass, Nat.add_assoc, Nat.add_comm 1, ← Nat.add_assoc, Nat.add_sub_cancel, Nat.add_assoc]
  exact hrest

/-- If the loop goes on rightly behind a character of code, it goes on rightly at it. -/
theorem run_literalLoop_single (hc : Encodes d b bs)
    (hwhole : whole = xs ++ ((Token.single d).text ++ after))
    (hitem : itemAt (encode whole) (encode xs).length = .ok (.plain b))
    (hopening : opening < (encode xs).length) (hdepth : depth ≠ 0)
    (hnext : Follows whole opening ((encode xs).length + (encode (Token.single d).text).length)
      (xs.length + 1) after) :
    (literalLoop (encode whole) opening).run
        ⟨(encode xs).length, depth, last.map (lastOctet whole)⟩ =
      .ok ((lastSignificant xs.length depth last ((Token.single d).roles ++ roles .code after)).map
        (Option.map (lastOctet whole))) := by
  have hlt : (encode xs).length < (encode whole).length := by
    rw [hwhole, encode_append, Token.text, List.singleton_append, hc.encode_cons]
    simp
  have hround := round_literalLoop hc hitem hlt hopening depth (last.map (lastOctet whole))
  have hcounted := fun (depth : ℕ) (hdepth : depth ≠ 0) =>
    run_literalLoop_counted hc hwhole hopening hdepth hnext
  simp only at hround
  rw [Token.roles, List.singleton_append, lastSignificant]
  by_cases hclose : isClosing d = true
  · have hopen : ¬isOpening d = true := fun hopen => by
      rw [isClosing_of_isOpening hopen] at hclose
      cases hclose
    have hblank := isAsciiBlank_of_bracket (.inl hclose)
    simp only [hblank, Bool.false_eq_true, if_false] at hround
    rw [if_neg hopen, if_pos hclose, if_neg hdepth] at hround
    rw [if_pos hclose]
    by_cases hone : depth ≤ 1
    · rw [if_pos (by omega)] at hround
      rw [if_pos hone, Loop.run_done hround]
      rfl
    · rw [if_neg (by omega)] at hround
      rw [if_neg hone, Loop.run_again hround]
      exact hcounted (depth - 1) (by omega)
  rw [if_neg hclose] at hround ⊢
  by_cases hopen : isOpening d = true
  · simp only [isAsciiBlank_of_bracket (.inr hopen), Bool.false_eq_true, if_false] at hround
    rw [if_pos hopen] at hround
    rw [if_pos hopen, Loop.run_again hround]
    exact hcounted (depth + 1) (Nat.succ_ne_zero depth)
  rw [if_neg hopen] at hround ⊢
  by_cases hblank : isAsciiBlank d = true
  · obtain rfl := hc.single (isMark_isAsciiBlank d hblank)
    rw [Token.text, hc.encode_singleton] at hnext
    rw [if_pos hblank] at hround
    rw [if_pos hblank, Loop.run_again hround]
    exact hnext depth last hdepth
  · rw [if_neg hblank] at hround
    rw [if_neg hblank, Loop.run_again hround]
    exact hcounted depth hdepth

end Single

/-- A string counts with the quote that closes it. -/
theorem run_literalLoop_string {mark : Char} {body after : List Char} (hquote : isQuote mark = true)
    (hwhole : whole = xs ++ ((Token.string mark body true).text ++ after))
    (hitem : itemAt (encode whole) (encode xs).length =
      .ok (.string (some ((encode xs).length + (encode (mark :: body)).length))))
    (hlt : (encode xs).length < (encode whole).length) (hdepth : depth ≠ 0)
    (hnext : Follows whole opening
      ((encode xs).length + (encode (Token.string mark body true).text).length)
      (xs.length + (Token.string mark body true).text.length) after) :
    (literalLoop (encode whole) opening).run
        ⟨(encode xs).length, depth, last.map (lastOctet whole)⟩ =
      .ok ((lastSignificant xs.length depth last
        ((Token.string mark body true).roles ++ roles .code after)).map
          (Option.map (lastOctet whole))) := by
  have hlast : lastOctet whole (xs.length + (body.length + 1), mark) =
      (encode xs).length + (encode (mark :: body)).length := by
    rw [lastOctet_append _ after hwhole, length_encode_string hquote]
    · omega
    · simp only [Token.text, List.length_cons, List.length_append, if_true, List.length_nil]
      omega
  have hround : (literalLoop (encode whole) opening).round
      ⟨(encode xs).length, depth, last.map (lastOctet whole)⟩ =
        .ok (.again ⟨(encode xs).length + (encode (Token.string mark body true).text).length,
          depth, (some (xs.length + (body.length + 1), mark)).map (lastOctet whole)⟩) := by
    simp only [literalLoop]
    rw [if_pos hlt, bind_of_eq_ok hitem, Option.map_some, hlast, length_encode_string hquote]
    rfl
  have hroles : (Token.string mark body true).roles ++ roles .code after =
      ((mark, .quoteStart) :: body.map (·, .quoted)) ++ (mark, .quoteEnd) :: roles .code after := by
    simp [Token.roles]
  rw [Loop.run_again hround, hnext depth _ hdepth, hroles, lastSignificant_pass (by simp),
    lastSignificant]
  simp [Token.text, Nat.add_assoc]

/-- The loop finds the octet of the character that the reader counts last. -/
theorem run_literalLoop {cs : List Char} (hwhole : whole = xs ++ cs)
    (hopening : opening < (encode xs).length) :
    Follows whole opening (encode xs).length xs.length cs := by
  intro depth last hdepth
  induction cs using tokens.induct generalizing xs depth last with
  | case1 =>
    refine Loop.run_done ?_
    simp only [literalLoop]
    rw [hwhole, List.append_nil, if_neg (Nat.lt_irrefl _)]
    rfl
  | case2 c cs ih =>
    have hdrop : (encode whole).drop (encode xs).length = encode (c :: cs) := by
      rw [hwhole, encode_append, List.drop_left]
    obtain ⟨item, hitem, hof⟩ := exists_itemAt hdrop
    have htext := text_firstToken c cs
    rw [roles_firstToken]
    generalize (firstToken c cs).1 = t at htext hof ⊢
    generalize (firstToken c cs).2 = after at ih htext hof ⊢
    rw [← htext] at hwhole
    have hlt : (encode xs).length < (encode whole).length := by
      have hpos := length_encode_pos t.text_ne_nil
      rw [hwhole, encode_append, encode_append, List.length_append, List.length_append]
      omega
    have hnext : Follows whole opening ((encode xs).length + (encode t.text).length)
        (xs.length + t.text.length) after := by
      intro depth last hdepth
      have hrest := @ih (xs ++ t.text) (by rw [hwhole, List.append_assoc])
        (by rw [encode_append, List.length_append]; omega) depth last hdepth
      rwa [encode_append, List.length_append, List.length_append] at hrest
    have hskip : (∀ r ∈ t.roles, r.2 ≠ .code ∧ r.2 ≠ .quoteEnd) →
        lastSignificant xs.length depth last (t.roles ++ roles .code after) =
          lastSignificant (xs.length + t.text.length) depth last (roles .code after) := by
      intro hroles
      rw [lastSignificant_pass hroles, Token.length_roles]
    cases hof with
    | line body | block body =>
      have hround : (literalLoop (encode whole) opening).round
          ⟨(encode xs).length, depth, last.map (lastOctet whole)⟩ =
            .ok (.again ⟨(encode xs).length + (encode ('/' :: body)).length, depth,
              last.map (lastOctet whole)⟩) := by
        simp only [literalLoop]
        rw [if_pos hlt, bind_of_eq_ok hitem]
      rw [Loop.run_again hround, hskip (by simp [Token.roles])]
      exact hnext depth last hdepth
    | blockOpen body hlast | stringOpen body hlast =>
      have hround : (literalLoop (encode whole) opening).round
          ⟨(encode xs).length, depth, last.map (lastOctet whole)⟩ = .ok (.done none) := by
        simp only [literalLoop]
        rw [if_pos hlt, bind_of_eq_ok hitem]
      rw [Loop.run_done hround, hskip (by simp [Token.roles]), hlast]
      rfl
    | string body hquote => exact run_literalLoop_string hquote hwhole hitem hlt hdepth hnext
    | single hc => exact run_literalLoop_single hc hwhole hitem hopening hdepth hnext

/-- The scan of a literal begins at the bracket that opens it, which does not count. -/
theorem scanLiteral_eq {mark : Char} (hmark : isOpening mark = true) (ys cs : List Char) :
    scanLiteral (encode (ys ++ mark :: cs)) (encode ys).length =
      .ok ((lastSignificant (ys.length + 1) 1 none (roles .code cs)).map
        (Option.map (lastOctet (ys ++ mark :: cs)))) := by
  have hdrop : (encode (ys ++ mark :: cs)).drop (encode ys).length = encode (mark :: cs) := by
    rw [encode_append, List.drop_left]
  obtain ⟨item, hitem, hof⟩ := exists_itemAt hdrop
  have hplain : isPlain mark = true := by
    simp only [isOpening, Bool.or_eq_true, beq_iff_eq] at hmark
    rcases hmark with (rfl | rfl) | rfl <;> decide
  have hfirst : firstToken mark cs = (.single mark, cs) := by
    simp only [isPlain, Bool.and_eq_true, Bool.not_eq_true', bne_iff_ne] at hplain
    simp [firstToken, hplain.1, hplain.2]
  rw [hfirst] at hof
  cases hof with
  | single hc =>
    obtain rfl := hc.single (isMark_isOpening mark hmark)
    rw [hc.encode_cons] at hdrop
    have hround : (literalLoop (encode (ys ++ mark :: cs)) (encode ys).length).round
        ⟨(encode ys).length, 0, none⟩ = .ok (.again ⟨(encode ys).length + 1, 1, none⟩) := by
      simp only [literalLoop]
      rw [if_pos (lt_of_drop hdrop), bind_of_eq_ok hitem]
      simp only [hc.mark isMark_isOpening, hmark, if_true, ne_eq, not_true_eq_false, false_and, if_false]
    have hsize : (encode (ys ++ [mark])).length = (encode ys).length + 1 := by
      rw [encode_append, hc.encode_singleton, List.length_append, List.length_singleton]
    have hrun := @run_literalLoop (ys ++ mark :: cs) (ys ++ [mark]) (encode ys).length cs (by simp)
      (by omega) 1 none Nat.one_ne_zero
    rw [hsize, List.length_append, List.length_singleton] at hrun
    rw [scanLiteral, Loop.run_again hround]
    exact hrun

end Literals

end Octet

end AppScaffold.Script
