import AppScaffold.Proofs.Loop
import AppScaffold.Proofs.Script.Octets
import AppScaffold.Script.Patch
import Mathlib.Data.List.Basic
import Mathlib.Tactic.Common

/-!
# Scanning octets

The scan of a script as it is done on the octets that are stored: with indices into them, with slices of
them, and with a count of open brackets that cannot be negative. Each of these can go wrong, and then the
scan panics. A loop goes on only to a state in which less is left to do, so it ends.

The stretches that fit a pattern are found among the characters, and are told in octets here.
-/

namespace AppScaffold.Script.Octet

/-- How a scan of octets can go wrong. -/
inductive Panic where
  /-- An index lies behind the end. -/
  | index
  /-- A slice begins behind the end. -/
  | slice
  /-- A text is cut inside a character. -/
  | boundary
  /-- A number is decreased below zero. -/
  | underflow
deriving DecidableEq

/-- The octet with an index. -/
def octetAt (bytes : List UInt8) (i : ℕ) : Except Panic UInt8 :=
  match bytes[i]? with
  | some b => .ok b
  | none => .error .index

/-- An octet is found at an index in the text. -/
theorem octetAt_eq_ok_iff {bytes : List UInt8} {i : ℕ} {b : UInt8} :
    octetAt bytes i = .ok b ↔ bytes[i]? = some b := by
  rw [octetAt]
  cases bytes[i]? <;> simp

/-- The octets from an index on. -/
def suffixAt (bytes : List UInt8) (i : ℕ) : Except Panic (List UInt8) :=
  if i ≤ bytes.length then .ok (bytes.drop i) else .error .slice

/-- The octets between two characters: there are none on one side, or a character begins. -/
def isBoundary (bytes : List UInt8) (i : ℕ) : Bool :=
  i == 0 || i == bytes.length || bytes[i]?.any (!isContinuation ·)

/-- The text before an octet. -/
def textBefore (bytes : List UInt8) (i : ℕ) : Except Panic (List UInt8) :=
  if isBoundary bytes i then .ok (bytes.take i) else .error .boundary

/-- The text from an octet on. -/
def textFrom (bytes : List UInt8) (i : ℕ) : Except Panic (List UInt8) :=
  if isBoundary bytes i then .ok (bytes.drop i) else .error .boundary

/-- The octet is read as the given character. -/
def reads (b : UInt8) (c : Char) : Bool := Char.ofUInt8 b == c

/-- The number of octets before the first star that a slash follows. -/
def beforeClose : List UInt8 → Option ℕ
  | [] => none
  | b :: bs =>
    if reads b '*' && bs.head?.any (reads · '/') then some 0 else (beforeClose bs).map (· + 1)

/-- The loop that looks for the quote that closes a string. -/
def quoteLoop (bytes : List UInt8) (quote : UInt8) : Loop Panic ℕ (Option ℕ) where
  round i :=
    if i < bytes.length then do
      let b ← octetAt bytes i
      if reads b '\\' then .ok (.again (i + 2))
      else if b = quote then .ok (.done (some i))
      else .ok (.again (i + 1))
    else .ok (.done none)
  left i := bytes.length - i
  advances := by
    intro i i' h
    split at h
    · next hlt =>
      obtain ⟨b, -, h⟩ := exists_of_bind_eq_ok h
      split_ifs at h
      · cases h
        omega
      · cases h
      · cases h
        omega
    · cases h

/-- The index of the quote that closes the string that begins at an index. -/
def closingQuote (bytes : List UInt8) (start : ℕ) : Except Panic (Option ℕ) := do
  let quote ← octetAt bytes start
  (quoteLoop bytes quote).run (start + 1)

/-- A string is closed behind its beginning. -/
theorem lt_of_closingQuote {bytes : List UInt8} {start close : ℕ}
    (h : closingQuote bytes start = .ok (some close)) : start < close := by
  obtain ⟨quote, -, h⟩ := exists_of_bind_eq_ok h
  refine Loop.run_induction (P := fun i close => ∀ n, close = some n → i ≤ n) ?_ ?_ h close rfl
  · rintro i _ hround n rfl
    simp only [quoteLoop] at hround
    split at hround
    · obtain ⟨b, -, hround⟩ := exists_of_bind_eq_ok hround
      split_ifs at hround
      · cases hround
      · cases hround
        exact Nat.le_refl _
      · cases hround
    · cases hround
  · rintro i i' _ hround hlater n rfl
    have hle := hlater n rfl
    simp only [quoteLoop] at hround
    split at hround
    · obtain ⟨b, -, hround⟩ := exists_of_bind_eq_ok hround
      split_ifs at hround
      · cases hround
        omega
      · cases hround
      · cases hround
        omega
    · cases hround

/-- What stands at an index outside comments and strings. -/
inductive Item where
  /-- A comment that ends before the end of its line, with the index behind it. -/
  | line (stop : ℕ)
  /-- A comment in slashes and stars, with the index behind it if it is closed. -/
  | block (stop : Option ℕ)
  /-- A string, with the index of the quote that closes it if there is one. -/
  | string (close : Option ℕ)
  /-- Any other octet. -/
  | plain (b : UInt8)

/-- What stands at an index, it being outside comments and strings. -/
def itemAt (bytes : List UInt8) (i : ℕ) : Except Panic Item := do
  let b ← octetAt bytes i
  if reads b '/' && bytes[i + 1]?.any (reads · '/') then
    let rest ← suffixAt bytes i
    .ok (.line (((rest.findIdx? (reads · '\n')).map (i + ·)).getD bytes.length))
  else if reads b '/' && bytes[i + 1]?.any (reads · '*') then
    let rest ← suffixAt bytes (i + 2)
    .ok (.block ((beforeClose rest).map (i + 2 + · + 2)))
  else if isQuote (Char.ofUInt8 b) then
    let close ← closingQuote bytes i
    .ok (.string close)
  else .ok (.plain b)

/-- The index behind an item that begins at an index; what is never closed runs to the end. -/
def Item.stop (bytes : List UInt8) (i : ℕ) : Item → ℕ
  | line stop => stop
  | block stop => stop.getD bytes.length
  | string close => (close.map (· + 1)).getD bytes.length
  | plain _ => i + 1

/-- An item ends behind its beginning. -/
theorem lt_stop_of_itemAt {bytes : List UInt8} {i : ℕ} {item : Item} (h : itemAt bytes i = .ok item) :
    i < item.stop bytes i := by
  obtain ⟨b, hb, h⟩ := exists_of_bind_eq_ok h
  rw [octetAt_eq_ok_iff] at hb
  obtain ⟨hlt, hat⟩ := List.getElem?_eq_some_iff.mp hb
  split_ifs at h with hline hblock hquote
  · obtain ⟨rest, hrest, h⟩ := exists_of_bind_eq_ok h
    cases h
    rw [suffixAt, if_pos (Nat.le_of_lt hlt)] at hrest
    cases hrest
    -- the comment begins with a slash, which is no line end
    have hslash : reads b '\n' = false := by
      simp only [Bool.and_eq_true, reads, beq_iff_eq] at hline
      simp [reads, hline.1]
    rw [List.drop_eq_getElem_cons hlt, hat, List.findIdx?_cons, hslash, if_neg (by decide)]
    simp only [Item.stop]
    cases List.findIdx? (reads · '\n') (bytes.drop (i + 1)) with
    | none => exact hlt
    | some n =>
      simp only [Option.map_some, Option.getD_some]
      omega
  · obtain ⟨rest, -, h⟩ := exists_of_bind_eq_ok h
    cases h
    simp only [Item.stop]
    cases beforeClose rest with
    | none => exact hlt
    | some n =>
      simp only [Option.map_some, Option.getD_some]
      omega
  · obtain ⟨close, hclose, h⟩ := exists_of_bind_eq_ok h
    cases h
    simp only [Item.stop]
    cases close with
    | none => exact hlt
    | some n => exact Nat.lt_succ_of_lt (lt_of_closingQuote hclose)
  · cases h
    exact Nat.lt_succ_self i

/-- The loop that finds out whether an index is outside comments and strings. -/
def codeLoop (bytes : List UInt8) (target : ℕ) : Loop Panic ℕ Bool where
  round i :=
    if i < target then do
      let item ← itemAt bytes i
      if target < item.stop bytes i then .ok (.done false) else .ok (.again (item.stop bytes i))
    else .ok (.done true)
  left i := target - i
  advances := by
    intro i i' h
    split at h
    · next hlt =>
      obtain ⟨item, hitem, h⟩ := exists_of_bind_eq_ok h
      have hstop := lt_stop_of_itemAt hitem
      split_ifs at h
      · cases h
      · cases h
        omega
    · cases h

/-- No comment or string lies on both sides of an index. -/
def isCodeOffset (bytes : List UInt8) (target : ℕ) : Except Panic Bool := (codeLoop bytes target).run 0

/-- The state of the scan of a literal. -/
structure Scan where
  /-- The index of the next octet. -/
  index : ℕ
  /-- The number of open brackets. -/
  depth : ℕ
  /-- The index of the last octet of content. -/
  last : Option ℕ

/-- The loop that looks for the bracket that closes a literal, the one that opens it being at an index.
-/
def literalLoop (bytes : List UInt8) (opening : ℕ) : Loop Panic Scan (Option (Option ℕ)) where
  round s :=
    if s.index < bytes.length then do
      match ← itemAt bytes s.index with
      | .line stop => .ok (.again { s with index := stop })
      | .block none | .string none => .ok (.done none)
      | .block (some stop) => .ok (.again { s with index := stop })
      | .string (some close) => .ok (.again { s with index := close + 1, last := some close })
      | .plain b =>
        let c := Char.ofUInt8 b
        let last := if s.index ≠ opening ∧ !isAsciiBlank c then some s.index else s.last
        if isOpening c then .ok (.again ⟨s.index + 1, s.depth + 1, last⟩)
        else if isClosing c then
          if s.depth = 0 then .error .underflow
          else if s.depth - 1 = 0 then .ok (.done (some s.last))
          else .ok (.again ⟨s.index + 1, s.depth - 1, last⟩)
        else .ok (.again ⟨s.index + 1, s.depth, last⟩)
    else .ok (.done none)
  left s := bytes.length - s.index
  advances := by
    intro s s' h
    split at h
    · next hlt =>
      obtain ⟨item, hitem, h⟩ := exists_of_bind_eq_ok h
      have hstop := lt_stop_of_itemAt hitem
      split at h
      · cases h
        simp only [Item.stop] at hstop ⊢
        omega
      · cases h
      · cases h
      · cases h
        simp only [Item.stop, Option.getD_some] at hstop ⊢
        omega
      · cases h
        simp only [Item.stop, Option.map_some, Option.getD_some] at hstop ⊢
        omega
      · simp only at h
        split_ifs at h
        all_goals
          cases h
          try (simp only; omega)
    · cases h

/-- The index of the last octet of content of a literal, which may have none; nothing if the literal is
never closed. -/
def scanLiteral (bytes : List UInt8) (opening : ℕ) : Except Panic (Option (Option ℕ)) :=
  (literalLoop bytes opening).run ⟨opening, 0, none⟩

/-- A stretch of a script, counted in octets. -/
def stretch (cs : List Char) (span : Span) : Span :=
  ⟨Text.octetOffset cs span.start, Text.octetOffset cs span.stop⟩

/-- The first of some stretches that begins in code. -/
def firstInCode (bytes : List UInt8) : List Span → Except Panic (Option Span)
  | [] => .ok none
  | span :: spans => do
    if ← isCodeOffset bytes span.start then .ok (some span) else firstInCode bytes spans

/-- The first declaration that begins in code. -/
def findDeclaration (cs : List Char) (parts : List Part) : Except Panic (Option Span) :=
  firstInCode (encode cs) ((spans (fun _ => afterParts parts) 0 0 none cs).map (stretch cs))

/-- The place for an entry. -/
def locate (anchor : Anchor) (cs : List Char) : Except Panic (Option InsertionPoint) :=
  match anchor.parts with
  | none =>
    .ok (some ⟨(encode cs).length,
      !(encode cs).isEmpty && !(encode cs).getLast?.any (reads · '\n')⟩)
  | some parts => do
    match ← findDeclaration cs parts with
    | none => .ok none
    | some found =>
      if found.stop = 0 then .error .underflow
      else
        match ← scanLiteral (encode cs) (found.stop - 1) with
        | none => .ok none
        | some none => .ok (some ⟨found.stop - 1 + 1, false⟩)
        | some (some last) => do
          let b ← octetAt (encode cs) last
          .ok (some ⟨last + 1, !reads b ','⟩)

/-- Where the declaration begins. -/
def declarationStart (anchor : Anchor) (cs : List Char) : Except Panic (Option ℕ) :=
  match anchor.parts with
  | none => .ok (some (encode cs).length)
  | some parts => do
    let found ← findDeclaration cs parts
    .ok (found.map Span.start)

/-- The place behind the last import that begins before `limit`. -/
def importBlockEnd (cs : List Char) (limit : ℕ) : Option ℕ :=
  ((((importSpans cs).map (stretch cs)).takeWhile fun span => span.start < limit).getLast?).map
    Span.stop

/-- Put octets in. -/
def insertAt (bytes : List UInt8) (i : ℕ) (insertion : List UInt8) : Except Panic (List UInt8) := do
  let before ← textBefore bytes i
  let after ← textFrom bytes i
  .ok (before ++ insertion ++ after)

/-- The edit that puts an import line in. -/
def importEdit (anchor : Anchor) (cs line : List Char) : Except Panic (ℕ × List UInt8) := do
  let start ← declarationStart anchor cs
  match importBlockEnd cs (start.getD (encode cs).length) with
  | some stop =>
    let before ← textBefore (encode cs) stop
    if before.getLast?.any (reads · '\n') then .ok (stop, encode (line ++ ['\n']))
    else .ok (stop, encode ('\n' :: line))
  | none => .ok (0, encode (line ++ ['\n', '\n']))

/-- The edits of a patch, both made on the script as it was. -/
def edits (anchor : Anchor) (cs fragment : List Char) (importLine : Option (List Char))
    (point : InsertionPoint) : Except Panic (List (ℕ × List UInt8)) :=
  let entry := (point.index, encode (entryBlock anchor point.needsSeparator fragment))
  match importLine with
  | none => .ok [entry]
  | some line => do
    let edit ← importEdit anchor cs line
    .ok [entry, edit]

/-- The script with an entry and its import line. The edit farthest behind is made first. -/
def applyPatch (anchor : Anchor) (cs fragment : List Char) (importLine : Option (List Char)) :
    Except Panic (Option (List UInt8)) := do
  match ← locate anchor cs with
  | none => .ok none
  | some point =>
    let found ← edits anchor cs fragment importLine point
    let out ← (found.mergeSort fun a b => b.1 ≤ a.1).foldlM (fun acc e => insertAt acc e.1 e.2)
      (encode cs)
    .ok (some out)

end AppScaffold.Script.Octet
