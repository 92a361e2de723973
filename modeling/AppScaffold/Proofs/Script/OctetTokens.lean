import AppScaffold.Proofs.Script.OctetScanner
import AppScaffold.Proofs.Script.Tokens
import Mathlib.Data.List.Basic
import Mathlib.Data.List.TakeWhile
import Mathlib.Tactic.Common

/-!
# Tokens among octets

What the scan finds at the first octet of a token is that token, with the index behind it. The octets of
which a character has more than one are passed one by one, also where a backslash has taken the first of
them: none of the others is taken for a quote, a bracket or a slash.
-/

namespace AppScaffold.Script

open Octet

section Reading

variable {c a : Char} {b : UInt8} {bs : List UInt8}

/-- An octet is known from the character as which it is read. -/
theorem ofUInt8_inj {x y : UInt8} : Char.ofUInt8 x = Char.ofUInt8 y ↔ x = y := by
  rw [← Char.toNat_inj, toNat_ofUInt8, toNat_ofUInt8, UInt8.toNat_inj]

/-- The first octet of a character is read as the character, if that has only one. -/
theorem Encodes.reads_first (h : Encodes c b bs) (ha : IsAscii a) : reads b a = (c == a) := by
  rw [reads, Bool.eq_iff_iff, beq_iff_eq, beq_iff_eq]
  exact h.read ha

/-- The other octets of a character are read as no character of one octet. -/
theorem reads_of_isContinuation (hb : isContinuation b = true) (ha : IsAscii a) : reads b a = false := by
  rw [reads, beq_eq_false_iff_ne]
  exact ne_of_isContinuation hb ha

/-- No octet of another character is read as a character of one octet. -/
theorem Encodes.reads_eq_false (h : Encodes c b bs) (ha : IsAscii a) (hc : c ≠ a) :
    ∀ x ∈ b :: bs, reads x a = false := by
  intro x hx
  rcases List.mem_cons.mp hx with rfl | hx
  · rw [h.reads_first ha, beq_eq_false_iff_ne]
    exact hc
  · exact reads_of_isContinuation (h.later x hx) ha

/-- The octets of a text begin with those of its first character. -/
theorem Encodes.encode_cons (h : Encodes c b bs) (cs : List Char) :
    encode (c :: cs) = b :: (bs ++ encode cs) := by
  rw [Script.encode_cons, h.eq, List.cons_append]

/-- The octets of a character. -/
theorem Encodes.encode_singleton (h : Encodes c b bs) : encode [c] = b :: bs := by
  rw [h.encode_cons, encode_nil, List.append_nil]

/-- The first octet of a text is read as the first character of the text, if that has only one. -/
theorem any_head?_encode (ha : IsAscii a) (cs : List Char) :
    (encode cs).head?.any (reads · a) = (cs.head? == some a) := by
  cases cs with
  | nil => rfl
  | cons c cs =>
    obtain ⟨b, bs, h⟩ := exists_encodes c
    rw [h.encode_cons, List.head?_cons, List.head?_cons, Option.any_some, h.reads_first ha]
    rfl

/-- A character of one octet is found behind the octets of the characters before it. -/
theorem findIdx?_encode (ha : IsAscii a) (cs : List Char) :
    (encode cs).findIdx? (reads · a) =
      if a ∈ cs then some (encode (cs.takeWhile (· ≠ a))).length else none := by
  induction cs with
  | nil => rfl
  | cons c cs ih =>
    obtain ⟨b, bs, h⟩ := exists_encodes c
    by_cases hc : c = a
    · subst hc
      rw [h.encode_cons, List.findIdx?_cons, h.reads_first ha, beq_self_eq_true, if_pos rfl,
        if_pos List.mem_cons_self, List.takeWhile_cons_of_neg (by simp)]
      rfl
    · have hnone : (b :: bs).findIdx? (reads · a) = none :=
        List.findIdx?_eq_none_iff.mpr (h.reads_eq_false ha hc)
      rw [h.encode_cons, ← List.cons_append, List.findIdx?_append, hnone, Option.none_or, ih,
        List.takeWhile_cons_of_pos (by simpa using hc), h.encode_cons]
      by_cases hmem : a ∈ cs
      · rw [if_pos hmem, if_pos (List.mem_cons_of_mem _ hmem), Option.map_some, Option.some.injEq,
          List.length_cons, List.length_cons, List.length_append]
        omega
      · rw [if_neg hmem, if_neg (by simp [hmem, Ne.symm hc])]
        rfl

/-- Octets that are read as no star are passed in the search for the end of a comment. -/
theorem beforeClose_append {front : List UInt8} (h : ∀ x ∈ front, reads x '*' = false)
    (rest : List UInt8) :
    beforeClose (front ++ rest) = (beforeClose rest).map (front.length + ·) := by
  induction front with
  | nil => simp
  | cons x front ih =>
    rw [List.cons_append, beforeClose, h x List.mem_cons_self, Bool.false_and, if_neg (by decide),
      ih fun y hy => h y (List.mem_cons_of_mem _ hy), Option.map_map]
    congr 1
    funext n
    simp only [Function.comp_apply, List.length_cons]
    omega

/-- The star that closes a comment is found behind the octets of the characters before it. -/
theorem beforeClose_encode (cs : List Char) :
    beforeClose (encode cs) = none ∧ blockBody cs = (cs, []) ∨
      ∃ body rest, blockBody cs = (body ++ ['*', '/'], rest) ∧
        beforeClose (encode cs) = some (encode body).length := by
  fun_induction blockBody cs with
  | case1 => exact .inl ⟨rfl, rfl⟩
  | case2 cs => exact .inr ⟨[], cs, rfl, rfl⟩
  | case3 c cs hclose ih =>
    obtain ⟨b, bs, h⟩ := exists_encodes c
    have hpass : beforeClose (encode (c :: cs)) =
        (beforeClose (encode cs)).map ((b :: bs).length + ·) := by
      by_cases hc : c = '*'
      · subst hc
        obtain rfl := h.single (by decide)
        have hslash : (encode cs).head?.any (reads · '/') = false := by
          rw [any_head?_encode (by decide), beq_eq_false_iff_ne]
          intro hhead
          exact hclose _ rfl (List.cons_head?_tail hhead).symm
        rw [h.encode_cons, List.nil_append, beforeClose, hslash, Bool.and_false, if_neg (by decide)]
        congr 1
        funext n
        simp only [List.length_singleton]
        omega
      · rw [h.encode_cons, ← List.cons_append, beforeClose_append (h.reads_eq_false (by decide) hc)]
    rcases ih with ⟨hnone, hbody⟩ | ⟨body, rest, hbody, hsome⟩
    · exact .inl ⟨by rw [hpass, hnone]; rfl, by rw [hbody]⟩
    · refine .inr ⟨c :: body, rest, by rw [hbody]; rfl, ?_⟩
      rw [hpass, hsome, h.encode_cons, Option.map_some, Option.some.injEq, List.length_cons,
        List.length_cons, List.length_append]
      omega

end Reading

namespace Octet

section Places

variable {bytes xs ys rest : List UInt8} {i : ℕ} {b : UInt8}

/-- What is behind the octets from an index on. -/
theorem drop_add (h : bytes.drop i = xs ++ ys) : bytes.drop (i + xs.length) = ys := by
  rw [← List.drop_drop, h, List.drop_left]

/-- What is behind the octet with an index. -/
theorem drop_succ (h : bytes.drop i = b :: rest) : bytes.drop (i + 1) = rest :=
  @drop_add bytes [b] rest i h

/-- An index with octets from it on is one of the octets. -/
theorem lt_of_drop (h : bytes.drop i = b :: rest) : i < bytes.length := by
  by_contra hle
  rw [List.drop_of_length_le (Nat.le_of_not_lt hle)] at h
  cases h

/-- The octet with an index is the first one from there on. -/
theorem octetAt_of_drop (h : bytes.drop i = b :: rest) : octetAt bytes i = .ok b := by
  rw [octetAt_eq_ok_iff, ← List.head?_drop, h, List.head?_cons]

/-- The octets from an index on can be taken if there are any. -/
theorem suffixAt_of_drop (h : bytes.drop i = b :: rest) : suffixAt bytes i = .ok (b :: rest) := by
  rw [suffixAt, if_pos (Nat.le_of_lt (lt_of_drop h)), h]

end Places

section Strings

variable {quote : UInt8} {mark : Char} {bytes bs rest : List UInt8} {i : ℕ}

/-- An octet that neither closes a string nor is a backslash is passed in it. -/
theorem round_quoteLoop {b : UInt8} (h : bytes.drop i = b :: rest) (hslash : reads b '\\' = false)
    (hquote : reads b (Char.ofUInt8 quote) = false) :
    (quoteLoop bytes quote).round i = .ok (.again (i + 1)) := by
  have hne : b ≠ quote := by
    rintro rfl
    simp [reads] at hquote
  simp only [quoteLoop]
  rw [if_pos (lt_of_drop h), bind_of_eq_ok (octetAt_of_drop h), hslash, if_neg (by decide), if_neg hne]

/-- Octets with which no character begins are passed in a string. -/
theorem run_quoteLoop_pass (hquote : IsAscii (Char.ofUInt8 quote))
    (hbs : ∀ x ∈ bs, isContinuation x = true) (h : bytes.drop i = bs ++ rest) :
    (quoteLoop bytes quote).run i = (quoteLoop bytes quote).run (i + bs.length) := by
  induction bs generalizing i with
  | nil => rfl
  | cons x bs ih =>
    have hx := hbs x List.mem_cons_self
    rw [Loop.run_again (round_quoteLoop h (reads_of_isContinuation hx (by decide))
      (reads_of_isContinuation hx hquote)),
      ih (fun y hy => hbs y (List.mem_cons_of_mem _ hy)) (drop_succ h), List.length_cons, Nat.add_assoc,
      Nat.add_comm 1]

/-- Behind the end of the script no quote is found. -/
theorem run_quoteLoop_end (h : bytes.length ≤ i) : (quoteLoop bytes quote).run i = .ok none := by
  refine Loop.run_done ?_
  simp only [quoteLoop]
  rw [if_neg (Nat.not_lt_of_le h)]

/-- A backslash takes the next octet with it, whatever it is. -/
theorem run_quoteLoop_escape {cs : List Char} (h : bytes.drop i = encode ('\\' :: cs)) :
    bytes.drop (i + 1) = encode cs ∧
      (quoteLoop bytes quote).run i = (quoteLoop bytes quote).run (i + 2) := by
  obtain ⟨b, bs, hb⟩ := exists_encodes '\\'
  obtain rfl := hb.single (by decide)
  rw [hb.encode_cons, List.nil_append] at h
  refine ⟨drop_succ h, Loop.run_again ?_⟩
  simp only [quoteLoop]
  rw [if_pos (lt_of_drop h), bind_of_eq_ok (octetAt_of_drop h), hb.reads_first (by decide),
    beq_self_eq_true, if_pos rfl]

/-- The quote of the string closes it. -/
theorem run_quoteLoop_close (hmark : isQuote mark = true) (hquote : Char.ofUInt8 quote = mark)
    {cs : List Char} (h : bytes.drop i = encode (mark :: cs)) :
    (quoteLoop bytes quote).run i = .ok (some i) := by
  have hascii := isMark_isQuote _ hmark
  have hslash : mark ≠ '\\' := by
    rintro rfl
    exact absurd hmark (by decide)
  obtain ⟨b, bs, hc⟩ := exists_encodes mark
  rw [hc.encode_cons] at h
  have hquote : b = quote := ofUInt8_inj.mp (((hc.read hascii).mpr rfl).trans hquote.symm)
  refine Loop.run_done ?_
  simp only [quoteLoop]
  rw [if_pos (lt_of_drop h), bind_of_eq_ok (octetAt_of_drop h), hc.reads_first (by decide),
    beq_false_of_ne hslash, if_neg (by decide), if_pos hquote]

/-- Any other character is passed. -/
theorem run_quoteLoop_next (hmark : isQuote mark = true) (hquote : Char.ofUInt8 quote = mark) {c : Char}
    {cs : List Char} (h : bytes.drop i = encode (c :: cs)) (hback : c ≠ '\\') (hne : c ≠ mark) :
    bytes.drop (i + (encode [c]).length) = encode cs ∧
      (quoteLoop bytes quote).run i = (quoteLoop bytes quote).run (i + (encode [c]).length) := by
  have hascii := isMark_isQuote _ hmark
  obtain ⟨b, bs, hc⟩ := exists_encodes c
  rw [hc.encode_cons] at h
  have hround := round_quoteLoop h (hc.reads_eq_false (by decide) hback b List.mem_cons_self)
    (hquote ▸ hc.reads_eq_false hascii hne b List.mem_cons_self)
  have hsize : i + (encode [c]).length = i + 1 + bs.length := by
    rw [hc.encode_singleton, List.length_cons]
    omega
  rw [hsize]
  exact ⟨drop_add (drop_succ h), by
    rw [Loop.run_again hround, run_quoteLoop_pass (hquote ▸ hascii) hc.later (drop_succ h)]⟩

/-- The quote that closes a string is found behind the octets of what stands in the string. -/
theorem run_quoteLoop (hmark : isQuote mark = true) (hquote : Char.ofUInt8 quote = mark)
    {cs : List Char} (h : bytes.drop i = encode cs) :
    (quoteLoop bytes quote).run i =
      .ok (if (stringBody mark cs).2.1 then some (i + (encode (stringBody mark cs).1).length)
        else none) := by
  fun_induction stringBody mark cs generalizing i with
  | case1 => exact run_quoteLoop_end (List.drop_eq_nil_iff.mp h)
  | case2 c cs ih =>
    -- the backslash takes the first octet of the character, and the others are passed
    obtain ⟨b, bs, hc⟩ := exists_encodes c
    obtain ⟨hbehind, hrun⟩ := run_quoteLoop_escape h
    rw [hc.encode_cons] at hbehind
    have hlater : bytes.drop (i + 2) = bs ++ encode cs := drop_succ hbehind
    have hsize : i + 2 + bs.length + (encode (stringBody mark cs).1).length =
        i + (encode ('\\' :: c :: (stringBody mark cs).1)).length := by
      have hslash : (encode ('\\' :: c :: (stringBody mark cs).1)).length =
          1 + (encode (c :: (stringBody mark cs).1)).length := Nat.add_comm ..
      rw [hslash, hc.encode_cons, List.length_cons, List.length_append]
      omega
    rw [hrun, run_quoteLoop_pass (hquote ▸ isMark_isQuote _ hmark) hc.later hlater,
      ih (drop_add hlater), hsize]
  | case3 cs => exact run_quoteLoop_close hmark hquote h
  | case4 c cs hescape hne ih =>
    by_cases hback : c = '\\'
    · -- a backslash at the end of the script
      subst hback
      obtain rfl : cs = [] := List.eq_nil_iff_forall_not_mem.mpr fun d hd => by
        obtain ⟨d, ds, rfl⟩ := List.exists_cons_of_ne_nil (List.ne_nil_of_mem hd)
        exact hescape d ds rfl rfl
      obtain ⟨hbehind, hrun⟩ := run_quoteLoop_escape h
      rw [hrun]
      exact run_quoteLoop_end (Nat.le_trans (List.drop_eq_nil_iff.mp hbehind) (Nat.le_succ _))
    · obtain ⟨hbehind, hrun⟩ := run_quoteLoop_next hmark hquote h hback hne
      have hsize : i + (encode [c]).length + (encode (stringBody mark cs).1).length =
          i + (encode (c :: (stringBody mark cs).1)).length := by
        have hfirst : encode (c :: (stringBody mark cs).1) = encode [c] ++ encode (stringBody mark cs).1 :=
          encode_append [c] _
        rw [hfirst, List.length_append, Nat.add_assoc]
      rw [hrun, ih hbehind, hsize]

end Strings

section Items

variable {bytes bs rest : List UInt8} {i : ℕ} {b : UInt8} {c : Char} {cs : List Char}

/-- What is found where a token begins, `rest` being what follows the token. -/
inductive ItemOf (i : ℕ) (rest : List Char) : Token → Item → Prop where
  /-- A comment that ends before the end of its line. -/
  | line (body : List Char) : ItemOf i rest (.comment body) (.line (i + (encode ('/' :: body)).length))
  /-- A comment that ends with a star and a slash. -/
  | block (body : List Char) :
    ItemOf i rest (.comment body) (.block (some (i + (encode ('/' :: body)).length)))
  /-- A comment that is never closed. -/
  | blockOpen (body : List Char) (last : rest = []) : ItemOf i rest (.comment body) (.block none)
  /-- A string. -/
  | string {mark : Char} (body : List Char) (quote : isQuote mark = true) :
    ItemOf i rest (.string mark body true) (.string (some (i + (encode (mark :: body)).length)))
  /-- A string that is never closed. -/
  | stringOpen {mark : Char} (body : List Char) (last : rest = []) :
    ItemOf i rest (.string mark body false) (.string none)
  /-- The first octet of any other character. -/
  | single {c : Char} {b : UInt8} {bs : List UInt8} (octets : Encodes c b bs) :
    ItemOf i rest (.single c) (.plain b)

/-- The second octet from an index on. -/
theorem getElem?_of_drop (h : bytes.drop i = b :: rest) : bytes[i + 1]? = rest.head? := by
  rw [← drop_succ h, List.head?_drop]

/-- An octet with which no character begins is passed outside comments and strings. -/
theorem itemAt_of_isContinuation (hb : isContinuation b = true) (h : bytes.drop i = b :: rest) :
    itemAt bytes i = .ok (.plain b) := by
  rw [itemAt, bind_of_eq_ok (octetAt_of_drop h), reads_of_isContinuation hb (by decide),
    mark_of_isContinuation hb isMark_isQuote]
  rfl

/-- The octets that begin with those of a character reach to the end. -/
theorem length_of_drop (h : bytes.drop i = encode (c :: cs)) :
    bytes.length = i + (encode (c :: cs)).length := by
  obtain ⟨b, bs, hc⟩ := exists_encodes c
  have hlt := lt_of_drop (h.trans (hc.encode_cons cs))
  have hdrop := congrArg List.length h
  rw [List.length_drop] at hdrop
  omega

/-- The two octets that open a comment are found where the two characters stand. -/
theorem opens_comment (h : bytes.drop i = encode (c :: cs)) (hc : Encodes c b bs) {a : Char}
    (ha : IsAscii a) :
    (reads b '/' && bytes[i + 1]?.any (reads · a)) = (c == '/' && cs.head? == some a) := by
  rw [hc.reads_first (by decide)]
  by_cases hslash : c = '/'
  · subst hslash
    obtain rfl := hc.single (by decide)
    rw [hc.encode_cons] at h
    rw [getElem?_of_drop h, List.nil_append, any_head?_encode ha]
  · rw [beq_false_of_ne hslash, Bool.false_and, Bool.false_and]

/-- A comment in a line ends in front of the next line end. -/
theorem stop_line (h : bytes.drop i = encode ('/' :: cs)) :
    (((encode ('/' :: cs)).findIdx? (reads · '\n')).map (i + ·)).getD bytes.length =
      i + (encode ('/' :: cs.takeWhile (· ≠ '\n'))).length := by
  rw [findIdx?_encode (by decide)]
  by_cases hend : '\n' ∈ '/' :: cs
  · rw [if_pos hend, List.takeWhile_cons_of_pos (by decide)]
    rfl
  · have hall : cs.takeWhile (· ≠ '\n') = cs := by
      rw [List.takeWhile_eq_self_iff]
      intro d hd
      rw [decide_eq_true_eq]
      rintro rfl
      exact hend (List.mem_cons_of_mem _ hd)
    rw [if_neg hend, hall, length_of_drop h]
    rfl

/-- Behind a slash and a star stands the body of a comment, which is closed or runs to the end. -/
theorem exists_itemOf_block (h : bytes.drop i = encode ('/' :: '*' :: cs)) :
    suffixAt bytes (i + 2) = .ok (encode cs) ∧
      ItemOf i (blockBody cs).2 (.comment ('*' :: (blockBody cs).1))
        (.block ((beforeClose (encode cs)).map (i + 2 + · + 2))) := by
  obtain ⟨b, bs, hb⟩ := exists_encodes '/'
  obtain rfl := hb.single (by decide)
  obtain ⟨d, ds, hd⟩ := exists_encodes '*'
  obtain rfl := hd.single (by decide)
  have hlength := length_of_drop h
  rw [hb.encode_cons, hd.encode_cons] at h hlength
  simp only [List.length_cons, List.nil_append] at hlength
  constructor
  · rw [suffixAt, if_pos (by omega), drop_succ (drop_succ h)]
    rfl
  rcases beforeClose_encode cs with ⟨hnone, hbody⟩ | ⟨body, rest, hbody, hsome⟩
  · rw [hnone, hbody]
    exact .blockOpen _ rfl
  · have hstop : i + 2 + (encode body).length + 2 =
        i + (encode ('/' :: '*' :: (body ++ ['*', '/']))).length := by
      have hclose : (encode ['*', '/']).length = 2 := rfl
      rw [hb.encode_cons, hd.encode_cons, encode_append]
      simp only [List.length_cons, List.length_append, List.nil_append, hclose]
      omega
    rw [hsome, Option.map_some, hstop, hbody]
    exact .block _

/-- Behind a quote stands the body of a string, which is closed or runs to the end. -/
theorem exists_itemOf_string (hquote : isQuote c = true) (h : bytes.drop i = encode (c :: cs)) :
    ∃ close, closingQuote bytes i = .ok close ∧
      ItemOf i (stringBody c cs).2.2 (.string c (stringBody c cs).1 (stringBody c cs).2.1)
        (.string close) := by
  obtain ⟨b, bs, hc⟩ := exists_encodes c
  obtain rfl := hc.single (isMark_isQuote c hquote)
  have hread : Char.ofUInt8 b = c := (hc.read (isMark_isQuote c hquote)).mpr rfl
  rw [hc.encode_cons] at h
  rw [closingQuote, bind_of_eq_ok (octetAt_of_drop h), run_quoteLoop hquote hread (drop_succ h)]
  refine ⟨_, rfl, ?_⟩
  cases hclosed : (stringBody c cs).2.1 with
  | true =>
    have hclose : i + 1 + (encode (stringBody c cs).1).length =
        i + (encode (c :: (stringBody c cs).1)).length := by
      rw [hc.encode_cons]
      simp only [List.length_cons, List.nil_append]
      omega
    rw [if_pos rfl, hclose]
    exact .string _ hquote
  | false =>
    rw [if_neg (by decide)]
    exact .stringOpen _ (stringBody_of_unclosed hclosed)

/-- At the first octet of a token the token is found. -/
theorem exists_itemAt (h : bytes.drop i = encode (c :: cs)) :
    ∃ item, itemAt bytes i = .ok item ∧ ItemOf i (firstToken c cs).2 (firstToken c cs).1 item := by
  obtain ⟨b, bs, hc⟩ := exists_encodes c
  have hfirst := h.trans (hc.encode_cons cs)
  rw [itemAt, bind_of_eq_ok (octetAt_of_drop hfirst), opens_comment h hc (by decide),
    opens_comment h hc (by decide), hc.mark isMark_isQuote, firstToken]
  simp only [Bool.and_eq_true, beq_iff_eq]
  by_cases hline : c = '/' ∧ cs.head? = some '/'
  · obtain ⟨rfl, hhead⟩ := hline
    rw [if_pos ⟨rfl, hhead⟩, if_pos ⟨rfl, hhead⟩, bind_of_eq_ok (suffixAt_of_drop hfirst),
      ← hc.encode_cons, stop_line h]
    exact ⟨_, rfl, .line _⟩
  rw [if_neg hline, if_neg hline]
  by_cases hblock : c = '/' ∧ cs.head? = some '*'
  · obtain ⟨rfl, hhead⟩ := hblock
    obtain ⟨ds, rfl⟩ : ∃ ds, cs = '*' :: ds := ⟨cs.tail, (List.cons_head?_tail hhead).symm⟩
    obtain ⟨hsuffix, hof⟩ := exists_itemOf_block h
    rw [if_pos ⟨rfl, hhead⟩, if_pos ⟨rfl, hhead⟩, bind_of_eq_ok hsuffix]
    exact ⟨_, rfl, hof⟩
  rw [if_neg hblock, if_neg hblock]
  by_cases hquote : isQuote c = true
  · obtain ⟨close, hclose, hof⟩ := exists_itemOf_string hquote h
    rw [if_pos hquote, if_pos hquote, bind_of_eq_ok hclose]
    exact ⟨_, rfl, hof⟩
  · rw [if_neg hquote, if_neg hquote]
    exact ⟨_, rfl, .single hc⟩

end Items

end Octet

end AppScaffold.Script
