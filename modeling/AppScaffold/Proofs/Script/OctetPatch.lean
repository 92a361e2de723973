import AppScaffold.Proofs.Script.OctetReading
import AppScaffold.Proofs.Script.Splicing
import Mathlib.Data.List.Basic
import Mathlib.Tactic.Common

/-!
# Patching octets

What the scan of the octets finds is what is found among the characters, told in octets. So the places
where a patch cuts the script lie between characters, nothing panics, and the patched octets are those of
the patched script.
-/

namespace AppScaffold.Script

open Octet

section Places

variable {cs : List Char} {index : ℕ}

/-- The octets before a place. -/
theorem take_encode (cs : List Char) (index : ℕ) :
    (encode cs).take (Text.octetOffset cs index) = encode (cs.take index) := by
  have hsplit := congrArg encode (List.take_append_drop index cs)
  rw [encode_append] at hsplit
  rw [← length_encode_take, ← hsplit, List.take_left]

/-- The octets from a place on. -/
theorem drop_encode (cs : List Char) (index : ℕ) :
    (encode cs).drop (Text.octetOffset cs index) = encode (cs.drop index) := by
  have hsplit := congrArg encode (List.take_append_drop index cs)
  rw [encode_append] at hsplit
  rw [← length_encode_take, ← hsplit, List.drop_left]

/-- The end of a script, in octets. -/
theorem octetOffset_length (cs : List Char) : Text.octetOffset cs cs.length = (encode cs).length := by
  rw [← length_encode_take, List.take_length]

/-- A place lies in the script, also in octets. -/
theorem octetOffset_le (cs : List Char) (index : ℕ) :
    Text.octetOffset cs index ≤ (encode cs).length := by
  rw [← length_encode_take, ← take_encode]
  exact List.length_take_le' ..

/-- Places have the same order in octets. -/
theorem octetOffset_lt_iff {i j : ℕ} (hi : i ≤ cs.length) (hj : j ≤ cs.length) :
    Text.octetOffset cs i < Text.octetOffset cs j ↔ i < j := by
  have hless : ∀ {i j : ℕ}, i < j → j ≤ cs.length →
      Text.octetOffset cs i < Text.octetOffset cs j := by
    intro i j hlt hj
    rw [← length_encode_take, ← length_encode_take, ← Nat.min_eq_left (Nat.le_of_lt hlt),
      ← List.take_take]
    exact length_encode_take_lt (by rwa [List.length_take_of_le hj])
  refine ⟨fun hlt => ?_, fun hlt => hless hlt hj⟩
  by_contra hle
  rcases Nat.eq_or_lt_of_le (Nat.le_of_not_lt hle) with rfl | hgt
  · exact absurd hlt (Nat.lt_irrefl _)
  · exact absurd (hless hgt hi) (Nat.not_lt_of_lt hlt)

/-- A place between characters is a boundary among the octets. -/
theorem isBoundary_octetOffset (hindex : index ≤ cs.length) :
    isBoundary (encode cs) (Text.octetOffset cs index) = true := by
  rw [isBoundary, ← List.head?_drop, drop_encode]
  cases hdrop : cs.drop index with
  | nil =>
    have hend : index = cs.length := Nat.le_antisymm hindex (List.drop_eq_nil_iff.mp hdrop)
    rw [hend, octetOffset_length]
    simp
  | cons c rest =>
    obtain ⟨b, bs, hc⟩ := exists_encodes c
    rw [hc.encode_cons]
    simp [hc.first]

/-- The last octet of a text is read as its last character, if that has only one. -/
theorem any_getLast?_encode {a : Char} (ha : IsAscii a) (cs : List Char) :
    (encode cs).getLast?.any (reads · a) = (cs.getLast? == some a) := by
  rcases List.eq_nil_or_concat' cs with rfl | ⟨cs, c, rfl⟩
  · rfl
  obtain ⟨b, bs, hc⟩ := exists_encodes c
  rw [encode_append, hc.encode_singleton, List.getLast?_concat]
  rcases List.eq_nil_or_concat' bs with rfl | ⟨bs, x, rfl⟩
  · rw [List.getLast?_concat, Option.any_some, hc.reads_first ha]
    rfl
  · -- a character of several octets is none of one octet
    have hne : c ≠ a := by
      rintro rfl
      simpa using hc.single ha
    have hx := reads_of_isContinuation (hc.later x (by simp)) ha
    rw [← List.cons_append, ← List.append_assoc, List.getLast?_concat, Option.any_some, hx, eq_comm,
      beq_eq_false_iff_ne]
    simpa using hne

end Places

namespace Octet

variable {cs : List Char} {anchor : Anchor} {parts : List Part}

/-- The first declaration in code is found. -/
theorem findDeclaration_eq (cs : List Char) (parts : List Part) :
    findDeclaration cs parts = .ok ((Script.findDeclaration cs parts).map (stretch cs)) := by
  have hstarts : ∀ s ∈ spans (fun _ => afterParts parts) 0 0 none cs, s.start ≤ cs.length :=
    fun s hs => (le_length_of_mem_spans hs).1
  rw [findDeclaration, Script.findDeclaration]
  generalize spans (fun _ => afterParts parts) 0 0 none cs = found at hstarts
  induction found with
  | nil => rfl
  | cons s rest ih =>
    have hcode : isCodeOffset (encode cs) (stretch cs s).start = .ok (isCodeIndex cs s.start) :=
      isCodeOffset_eq (hstarts s List.mem_cons_self)
    rw [List.map_cons, firstInCode, List.find?_cons, bind_of_eq_ok hcode]
    cases isCodeIndex cs s.start with
    | true => rfl
    | false => exact ih fun t ht => hstarts t (List.mem_cons_of_mem _ ht)

/-- The beginning of the declaration is found. -/
theorem declarationStart_eq (anchor : Anchor) (cs : List Char) :
    declarationStart anchor cs = .ok ((anchor.declarationStart cs).map (Text.octetOffset cs)) := by
  rw [declarationStart, Anchor.declarationStart]
  cases anchor.parts with
  | none => rw [Option.map_some, octetOffset_length]
  | some parts =>
    simp only
    rw [bind_of_eq_ok (findDeclaration_eq cs parts)]
    cases Script.findDeclaration cs parts <;> rfl

/-- A literal is opened by the last character of its declaration. -/
theorem exists_opening (h : anchor.parts = some parts) :
    ∃ front mark, parts = front ++ [.exact [mark]] ∧ isOpening mark = true := by
  cases anchor with
  | arrayLiteral name =>
    cases h
    exact ⟨_, '[', rfl, rfl⟩
  | mapCall name callee =>
    cases h
    exact ⟨Anchor.declarationParts name ++ [.exact callee.toList, .blanks, .exact ['('], .blanks],
      '\x7b', by simp, rfl⟩
  | fileEnd => cases h

/-- A declaration that is found ends with the bracket that opens its literal. -/
theorem exists_declaration {front : List Part} {mark : Char} {d : Span}
    (h : Script.findDeclaration cs (front ++ [.exact [mark]]) = some d) :
    ∃ ys rest, cs = ys ++ mark :: rest ∧ d.stop = ys.length + 1 := by
  obtain ⟨a, b, r, rfl, -, hfit, hstart, hstop⟩ := mem_spans (List.mem_of_find?_eq_some h)
  obtain ⟨m, hm, rfl⟩ := fits_of_afterParts hfit
  obtain ⟨x, _, rfl, -, t, _, rfl, rfl, rfl⟩ := fits_append.mp hm
  refine ⟨a ++ x, r, by simp, ?_⟩
  rw [hstop, hstart]
  simp only [List.length_append, List.length_singleton, List.append_nil]
  omega

/-- The last octet of a character is found, and it is read as a comma exactly if the character is one. -/
theorem octetAt_lastOctet {i : ℕ} {c : Char} (h : cs[i]? = some c) :
    lastOctet cs (i, c) + 1 = Text.octetOffset cs (i + 1) ∧
      ∃ b, octetAt (encode cs) (lastOctet cs (i, c)) = .ok b ∧ reads b ',' = (c == ',') := by
  have htake : (cs.take (i + 1)).getLast? = some c := by
    rw [List.getLast?_take, if_neg (Nat.succ_ne_zero i), Nat.add_sub_cancel, h, Option.some_or]
  have hpos := length_encode_pos (show cs.take (i + 1) ≠ [] by
    rintro hnil
    rw [hnil] at htake
    cases htake)
  have hsize : lastOctet cs (i, c) + 1 = (encode (cs.take (i + 1))).length := by
    rw [lastOctet]
    exact Nat.sub_add_cancel hpos
  refine ⟨by rw [hsize, length_encode_take], ?_⟩
  have hlast := any_getLast?_encode (a := ',') (by decide) (cs.take (i + 1))
  rw [htake, ← take_encode, List.getLast?_take, ← length_encode_take, if_neg (by omega), ← hsize,
    Nat.add_sub_cancel] at hlast
  have hlt : lastOctet cs (i, c) < (encode cs).length := by
    have hle := octetOffset_le cs (i + 1)
    rw [← length_encode_take] at hle
    omega
  rw [List.getElem?_eq_getElem hlt, Option.some_or, Option.any_some] at hlast
  exact ⟨_, octetAt_eq_ok_iff.mpr (List.getElem?_eq_getElem hlt), hlast⟩

/-- The bracket that opens a literal is one octet. -/
theorem octetOffset_opening {mark : Char} (hmark : isOpening mark = true) (ys rest : List Char) :
    Text.octetOffset (ys ++ mark :: rest) (ys.length + 1) = (encode ys).length + 1 := by
  obtain ⟨b, bs, hc⟩ := exists_encodes mark
  obtain rfl := hc.single (isMark_isOpening mark hmark)
  rw [← length_encode_take, List.append_cons, List.take_left' (by simp), encode_append,
    hc.encode_singleton, List.length_append, List.length_singleton]

/-- The character that counts last in a literal stands in the script at its index. -/
theorem getElem?_of_lastSignificant {mark c : Char} {ys rest : List Char} {i : ℕ}
    (h : lastSignificant (ys.length + 1) 1 none (roles .code rest) = some (some (i, c))) :
    (ys ++ mark :: rest)[i]? = some c := by
  obtain hnone | ⟨before, role, after, hroles, rfl⟩ := exists_of_lastSignificant h
  · cases hnone
  have hrest : rest = before.map Prod.fst ++ c :: after.map Prod.fst := by
    rw [← map_fst_roles .code rest, hroles, List.map_append, List.map_cons]
  rw [hrest, List.append_cons, ← List.append_assoc, List.getElem?_append_right (by simp; omega),
    List.length_append, List.length_append, List.length_singleton, List.length_map, Nat.sub_self]
  rfl

/-- The place for an entry is found. -/
theorem locate_eq (anchor : Anchor) (cs : List Char) :
    locate anchor cs =
      .ok ((anchor.locate cs).map fun point =>
        ⟨Text.octetOffset cs point.index, point.needsSeparator⟩) := by
  rw [locate, Anchor.locate]
  cases hparts : anchor.parts with
  | none =>
    have hempty : (encode cs).isEmpty = cs.isEmpty := by
      cases cs with
      | nil => rfl
      | cons c cs =>
        obtain ⟨b, bs, hc⟩ := exists_encodes c
        rw [hc.encode_cons]
        rfl
    simp only [Option.map_some, octetOffset_length, hempty,
      any_getLast?_encode (show IsAscii '\n' by decide)]
    rfl
  | some parts =>
    simp only
    rw [bind_of_eq_ok (findDeclaration_eq cs parts)]
    cases hfind : Script.findDeclaration cs parts with
    | none => rfl
    | some d =>
      obtain ⟨front, mark, rfl, hmark⟩ := exists_opening hparts
      obtain ⟨ys, rest, rfl, hstop⟩ := exists_declaration hfind
      have hsize := octetOffset_opening hmark ys rest
      have hdrop : (ys ++ mark :: rest).drop (ys.length + 1) = rest := by
        rw [List.append_cons, List.drop_left' (by simp)]
      simp only [Option.map_some, stretch, hstop, hsize, Nat.succ_ne_zero, if_false,
        Nat.add_sub_cancel, Option.bind_eq_bind, Option.bind_some, hdrop]
      rw [bind_of_eq_ok (scanLiteral_eq hmark ys rest)]
      cases hlast : lastSignificant (ys.length + 1) 1 none (roles .code rest) with
      | none => rfl
      | some last =>
        cases last with
        | none => simp only [Option.map_some, Option.map_none, Option.bind_some, hsize]
        | some counted =>
          obtain ⟨hindex, b, hb, hcomma⟩ := octetAt_lastOctet (getElem?_of_lastSignificant hlast)
          simp only [Option.map_some, Option.bind_some]
          rw [bind_of_eq_ok hb, hindex, hcomma]
          rfl

/-- A string in which an escape stands before a character of two octets is closed by its quote, and the
entry goes behind it; a comment that is never closed hides the bracket that closes the literal. -/
example :
    locate (.arrayLiteral "xs") "export const xs = ['\\ä\\\\'];".toList = .ok (some ⟨26, true⟩) ∧
      locate (.arrayLiteral "xs") "export const xs = ['\\ä', /*];".toList = .ok none := by
  rw [locate_eq, locate_eq]
  decide +kernel

/-- The place behind the imports is found. -/
theorem importBlockEnd_eq {limit : ℕ} (hlimit : limit ≤ cs.length) :
    importBlockEnd cs (Text.octetOffset cs limit) =
      (Script.importBlockEnd cs limit).map (Text.octetOffset cs) := by
  have hstarts : ∀ s ∈ importSpans cs, s.start ≤ cs.length :=
    fun s hs => (le_length_of_mem_spans hs).1
  have hsame : (importSpans cs).takeWhile
        ((fun span : Span => decide (span.start < Text.octetOffset cs limit)) ∘ stretch cs) =
      (importSpans cs).takeWhile fun span => span.start < limit := by
    generalize importSpans cs = found at hstarts
    induction found with
    | nil => rfl
    | cons s rest ih =>
      have hs : (Text.octetOffset cs s.start < Text.octetOffset cs limit) = (s.start < limit) :=
        propext (octetOffset_lt_iff (hstarts s List.mem_cons_self) hlimit)
      simp only [List.takeWhile_cons, Function.comp_apply, stretch, hs,
        ih fun t ht => hstarts t (List.mem_cons_of_mem _ ht)]
  rw [importBlockEnd, Script.importBlockEnd, List.takeWhile_map, hsame, List.getLast?_map,
    Option.map_map, Option.map_map]
  rfl

/-- What is put in between characters is put in between their octets. -/
theorem insertAt_eq {index : ℕ} (hindex : index ≤ cs.length) (insertion : List Char) :
    insertAt (encode cs) (Text.octetOffset cs index) (encode insertion) =
      .ok (encode (Script.insertAt cs index insertion)) := by
  have hboundary := isBoundary_octetOffset hindex
  rw [insertAt, textBefore, textFrom, if_pos hboundary, if_pos hboundary, take_encode, drop_encode,
    Script.insertAt, encode_append, encode_append]
  rfl

/-- The edit for an import line is the one that is made among the characters. -/
theorem importEdit_eq {start : ℕ} (hstart : anchor.declarationStart cs = some start)
    (line : List Char) :
    importEdit anchor cs line =
      .ok (Text.octetOffset cs (importBlock cs start line).1,
        encode (importBlock cs start line).2) := by
  have hfound := declarationStart_eq anchor cs
  rw [hstart, Option.map_some] at hfound
  rw [importEdit, bind_of_eq_ok hfound, Option.getD_some,
    importBlockEnd_eq (Anchor.le_of_declarationStart hstart), importBlock]
  cases hend : Script.importBlockEnd cs start with
  | none => rfl
  | some stop =>
    have hstop : stop ≤ cs.length := by
      have hle := importPlace_le cs start
      rwa [importPlace, hend, Option.getD_some] at hle
    have htext : textBefore (encode cs) (Text.octetOffset cs stop) = .ok (encode (cs.take stop)) := by
      rw [textBefore, if_pos (isBoundary_octetOffset hstop), take_encode]
    simp only [Option.map_some]
    rw [bind_of_eq_ok htext, any_getLast?_encode (by decide)]
    by_cases hline : (cs.take stop).getLast? = some '\n'
    · rw [if_pos (by rw [hline]; rfl), if_pos hline]
    · rw [if_neg (by simpa using hline), if_neg hline]

/-- Of two edits the one farther behind is made first. -/
theorem mergeSort_edits (p q : ℕ) (entry block : List UInt8) :
    ([(p, entry), (q, block)].mergeSort fun a b => b.1 ≤ a.1) =
      if q ≤ p then [(p, entry), (q, block)] else [(q, block), (p, entry)] := by
  simp [List.mergeSort, List.MergeSort.Internal.splitInTwo, List.cons_merge_cons]

/-- What is put in behind a place leaves the place, also in octets. -/
theorem octetOffset_insertAt {p q : ℕ} (hq : q ≤ p) (hp : p ≤ cs.length) (insertion : List Char) :
    Text.octetOffset (Script.insertAt cs p insertion) q = Text.octetOffset cs q := by
  rw [← length_encode_take, take_insertAt hq hp, length_encode_take]

/-- Two texts are put in between octets as they are put in between characters. -/
theorem insertBoth_eq {p q : ℕ} (hp : p ≤ cs.length) (hq : q ≤ cs.length)
    (entry block : List Char) :
    (do
      let out ← (if Text.octetOffset cs q ≤ Text.octetOffset cs p then
          [(Text.octetOffset cs p, encode entry), (Text.octetOffset cs q, encode block)]
        else
          [(Text.octetOffset cs q, encode block), (Text.octetOffset cs p, encode entry)]).foldlM
        (fun acc e => insertAt acc e.1 e.2) (encode cs)
      .ok (some out)) = Except.ok (some (encode (insertBoth cs p entry q block))) := by
  have hinto : ∀ {i j : ℕ} (first second : List Char), j ≤ i → i ≤ cs.length →
      insertAt (encode (Script.insertAt cs i first)) (Text.octetOffset cs j) (encode second) =
        .ok (encode (Script.insertAt (Script.insertAt cs i first) j second)) := by
    intro i j first second hji hi
    rw [← octetOffset_insertAt hji hi first]
    refine insertAt_eq ?_ second
    rw [length_insertAt]
    omega
  have horder : Text.octetOffset cs q ≤ Text.octetOffset cs p ↔ q ≤ p := by
    rw [← Nat.not_lt, octetOffset_lt_iff hp hq, Nat.not_lt]
  rw [insertBoth]
  by_cases hle : q ≤ p
  · rw [if_pos (horder.mpr hle), if_pos hle, List.foldlM_cons, bind_of_eq_ok (insertAt_eq hp entry),
      List.foldlM_cons, bind_of_eq_ok (hinto entry block hle hp)]
    rfl
  · rw [if_neg (mt horder.mp hle), if_neg hle, List.foldlM_cons, bind_of_eq_ok (insertAt_eq hq block),
      List.foldlM_cons, bind_of_eq_ok (hinto block entry (Nat.le_of_not_le hle) hq)]
    rfl

/-- An import line is put in between characters. -/
theorem importBlock_le (cs line : List Char) (start : ℕ) :
    (importBlock cs start line).1 ≤ cs.length := by
  obtain ⟨lead, trail, hblock, -⟩ := exists_importBlock_eq cs line start
  rw [hblock]
  exact importPlace_le cs start

/-- The edits of a patch are those that are made among the characters. -/
theorem edits_eq {start : ℕ} (hstart : anchor.declarationStart cs = some start) (fragment : List Char)
    (importLine : Option (List Char)) (point : InsertionPoint) :
    edits anchor cs fragment importLine
        ⟨Text.octetOffset cs point.index, point.needsSeparator⟩ =
      .ok ((Text.octetOffset cs point.index,
          encode (entryBlock anchor point.needsSeparator fragment)) ::
        (importLine.map fun line =>
          (Text.octetOffset cs (importBlock cs start line).1,
            encode (importBlock cs start line).2)).toList) := by
  cases importLine with
  | none => rfl
  | some line =>
    rw [edits, importEdit_eq hstart]
    rfl

/-- The octets of a patched script are patched octets. -/
theorem applyPatch_eq (anchor : Anchor) (cs fragment : List Char) (importLine : Option (List Char)) :
    applyPatch anchor cs fragment importLine =
      .ok ((Script.applyPatch cs anchor fragment importLine).map encode) := by
  rw [applyPatch, bind_of_eq_ok (locate_eq anchor cs), Script.applyPatch]
  cases hlocate : anchor.locate cs with
  | none => rfl
  | some point =>
    have hindex := Anchor.index_le_of_locate hlocate
    obtain ⟨start, hstart⟩ := Anchor.exists_declarationStart hlocate
    have hedits := edits_eq hstart fragment importLine point
    cases importLine with
    | none =>
      simp only [Option.map_some]
      rw [bind_of_eq_ok hedits, Option.map_none, Option.toList_none, List.mergeSort_singleton,
        List.foldlM_cons, bind_of_eq_ok (insertAt_eq hindex _)]
      rfl
    | some line =>
      simp only [Option.map_some, hstart, Option.getD_some]
      rw [bind_of_eq_ok hedits, Option.map_some, Option.toList_some, mergeSort_edits]
      exact insertBoth_eq hindex (importBlock_le cs line start) _ _

/-- A place where a script can be cut. -/
structure IsCut (cs : List Char) (i : ℕ) : Prop where
  /-- It is not behind the end. -/
  le : i ≤ (encode cs).length
  /-- No character has octets on both sides. -/
  boundary : isBoundary (encode cs) i = true
  /-- On both sides there are whole characters. -/
  between : ∃ front back, cs = front ++ back ∧ i = (encode front).length

/-- A script can be cut between its characters. -/
theorem isCut_octetOffset {index : ℕ} (hindex : index ≤ cs.length) :
    IsCut cs (Text.octetOffset cs index) where
  le := octetOffset_le cs index
  boundary := isBoundary_octetOffset hindex
  between := ⟨cs.take index, cs.drop index, (List.take_append_drop index cs).symm,
    (length_encode_take cs index).symm⟩

/-- A script can be cut behind its imports. -/
theorem isCut_of_importBlockEnd {limit stop : ℕ} (h : importBlockEnd cs limit = some stop) :
    IsCut cs stop := by
  obtain ⟨found, hlast, rfl⟩ := Option.map_eq_some_iff.mp h
  obtain ⟨span, hspan, rfl⟩ :=
    List.mem_map.mp ((List.takeWhile_prefix _).subset (List.mem_of_getLast? hlast))
  exact isCut_octetOffset (le_length_of_mem_spans hspan).2

section Rounds

variable {bytes : List UInt8}

/-- A round of the search for a quote leads on, and there is an octet to look at. -/
theorem lt_of_quoteLoop {quote : UInt8} {i i' : ℕ}
    (h : (quoteLoop bytes quote).round i = .ok (.again i')) : i < i' ∧ i < bytes.length := by
  have hless := (quoteLoop bytes quote).advances h
  simp only [quoteLoop] at hless
  omega

/-- A round of the search for the items before an index leads on, and it begins before the index. -/
theorem lt_of_codeLoop {target i i' : ℕ} (h : (codeLoop bytes target).round i = .ok (.again i')) :
    i < i' ∧ i < target := by
  have hless := (codeLoop bytes target).advances h
  simp only [codeLoop] at hless
  omega

/-- A round of the scan of a literal leads on, and there is an octet to look at. -/
theorem lt_of_literalLoop {opening : ℕ} {s s' : Scan}
    (h : (literalLoop bytes opening).round s = .ok (.again s')) :
    s.index < s'.index ∧ s.index < bytes.length := by
  have hless := (literalLoop bytes opening).advances h
  simp only [literalLoop] at hless
  omega

end Rounds

/-- The scan of a script never panics, whatever the script holds. The places that it finds are those
that are found among the characters, and the script can be cut at each of them, as at the places of the
edits; the patched octets are those of the patched script. Its loops look at octets that are there and
lead on in every round. -/
theorem patching_never_panics (anchor : Anchor) (cs : List Char) :
    (locate anchor cs = .ok ((anchor.locate cs).map fun point =>
        ⟨Text.octetOffset cs point.index, point.needsSeparator⟩) ∧
      ∀ point ∈ anchor.locate cs, IsCut cs (Text.octetOffset cs point.index)) ∧
    (declarationStart anchor cs = .ok ((anchor.declarationStart cs).map (Text.octetOffset cs)) ∧
      ∀ start ∈ anchor.declarationStart cs, IsCut cs (Text.octetOffset cs start)) ∧
    (∀ limit, (∀ stop ∈ importBlockEnd cs limit, IsCut cs stop) ∧
      (limit ≤ cs.length → importBlockEnd cs (Text.octetOffset cs limit) =
        (Script.importBlockEnd cs limit).map (Text.octetOffset cs))) ∧
    (∀ fragment importLine,
      (∀ point, locate anchor cs = .ok (some point) →
        ∃ found, edits anchor cs fragment importLine point = .ok found ∧
          ∀ edit ∈ found, IsCut cs edit.1) ∧
      applyPatch anchor cs fragment importLine =
        .ok ((Script.applyPatch cs anchor fragment importLine).map encode)) ∧
    ∀ bytes : List UInt8,
      (∀ quote i i', (quoteLoop bytes quote).round i = .ok (.again i') → i < i' ∧ i < bytes.length) ∧
      (∀ target i i', (codeLoop bytes target).round i = .ok (.again i') → i < i' ∧ i < target) ∧
      ∀ opening s s', (literalLoop bytes opening).round s = .ok (.again s') →
        s.index < s'.index ∧ s.index < bytes.length := by
  refine ⟨⟨locate_eq anchor cs, ?_⟩, ⟨declarationStart_eq anchor cs, ?_⟩,
    fun limit => ⟨fun stop h => isCut_of_importBlockEnd h, importBlockEnd_eq⟩,
    fun fragment importLine => ⟨?_, applyPatch_eq anchor cs fragment importLine⟩,
    fun bytes => ⟨fun _ _ _ => lt_of_quoteLoop, fun _ _ _ => lt_of_codeLoop,
      fun _ _ _ => lt_of_literalLoop⟩⟩
  · exact fun point hpoint => isCut_octetOffset (Anchor.index_le_of_locate hpoint)
  · exact fun start hstart => isCut_octetOffset (Anchor.le_of_declarationStart hstart)
  · intro point hpoint
    rw [locate_eq, Except.ok.injEq] at hpoint
    obtain ⟨found, hfound, rfl⟩ := Option.map_eq_some_iff.mp hpoint
    obtain ⟨start, hstart⟩ := Anchor.exists_declarationStart hfound
    refine ⟨_, edits_eq hstart fragment importLine found, fun edit hedit => ?_⟩
    rcases List.mem_cons.mp hedit with rfl | hedit
    · exact isCut_octetOffset (Anchor.index_le_of_locate hfound)
    · obtain ⟨line, -, rfl⟩ := Option.map_eq_some_iff.mp (Option.mem_toList.mp hedit)
      exact isCut_octetOffset (importBlock_le cs line start)

end Octet

end AppScaffold.Script
