import AppScaffold.Proofs.Script.FirstDeclaration
import AppScaffold.Proofs.Script.ImportPlace
import Mathlib.Data.List.Basic
import Mathlib.Tactic.Common

/-!
# What a patch puts in where

A patch is the script with two blocks put in, each at a place of the script as it was: the entry at the
place that the anchor marks, and the import line behind the last import that begins before the
declaration. The places are found before anything is put in, and the block that comes later in the script
is put in first, so that neither moves the place of the other. Without the two blocks the script is what
it was.
-/

namespace AppScaffold.Script

/-- A text without the characters at a place. -/
def removeAt (cs : List Char) (index size : ℕ) : List Char := cs.take index ++ cs.drop (index + size)

/-- What is put in behind a piece of text can be taken out again. -/
@[simp] theorem removeAt_append (x block y : List Char) :
    removeAt (x ++ (block ++ y)) x.length block.length = x ++ y := by
  rw [removeAt, List.take_left, ← List.drop_drop, List.drop_left, List.drop_left]

/-- The block that is put in for an import line: where it goes and what it is. The imports are listed
from the first to the last, and `start` is where the declaration begins. -/
inductive ImportEdit (cs line : List Char) (start : ℕ) : ℕ → List Char → Prop where
  /-- No import begins before the declaration: the line goes to the top, with an empty line behind. -/
  | top (none : ∀ span ∈ importSpans cs, start ≤ span.start) :
    ImportEdit cs line start 0 (line ++ ['\n', '\n'])
  /-- The last import before the declaration ends its line: the new line goes below it. -/
  | below {front later : List Span} {last : Span} (imports : importSpans cs = front ++ last :: later)
    (before : last.start < start) (after : ∀ span ∈ later, start ≤ span.start)
    (ends : (cs.take last.stop).getLast? = some '\n') :
    ImportEdit cs line start last.stop (line ++ ['\n'])
  /-- It ends the script without ending its line: a line end comes first. -/
  | atEnd {front later : List Span} {last : Span} (imports : importSpans cs = front ++ last :: later)
    (before : last.start < start) (after : ∀ span ∈ later, start ≤ span.start)
    (ends : last.stop = cs.length) (noLine : cs.getLast? ≠ some '\n') :
    ImportEdit cs line start last.stop ('\n' :: line)

/-- `out` is the script `cs` with `entry` put in at `p` and `block` at `q`, both counted in `cs`; at one
place `block` comes first. -/
structure Spliced (cs : List Char) (p : ℕ) (entry : List Char) (q : ℕ) (block out : List Char) :
    Prop where
  /-- The script is in three pieces that the blocks come between, in the order of the places. -/
  pieces : ∃ a m z, cs = a ++ (m ++ z) ∧
    (q ≤ p ∧ a.length = q ∧ a.length + m.length = p ∧ out = a ++ (block ++ (m ++ (entry ++ z))) ∨
      p < q ∧ a.length = p ∧ a.length + m.length = q ∧ out = a ++ (entry ++ (m ++ (block ++ z))))
  /-- Without the two blocks the script is what it was. -/
  restored :
    if q ≤ p then removeAt (removeAt out (p + block.length) entry.length) q block.length = cs
    else removeAt (removeAt out (q + entry.length) block.length) p entry.length = cs

/-- Two texts that are put in are spliced in. -/
theorem spliced_insertBoth {cs : List Char} {p q : ℕ} (hp : p ≤ cs.length) (hq : q ≤ cs.length)
    (entry block : List Char) : Spliced cs p entry q block (insertBoth cs p entry q block) := by
  have hpieces : ∀ i j, i ≤ j → j ≤ cs.length → ∃ a m z, cs = a ++ (m ++ z) ∧ a.length = i ∧
      a.length + m.length = j := by
    intro i j hij hj
    refine ⟨cs.take i, (cs.drop i).take (j - i), (cs.drop i).drop (j - i), ?_, ?_, ?_⟩
    · rw [List.take_append_drop, List.take_append_drop]
    · rw [List.length_take_of_le (by omega)]
    · rw [List.length_take_of_le (by omega), List.length_take_of_le (by rw [List.length_drop]; omega)]
      omega
  have hinsert : ∀ x block y : List Char, insertAt (x ++ y) x.length block = x ++ (block ++ y) := by
    intro x block y
    rw [insertAt, List.take_left, List.drop_left, List.append_assoc]
  by_cases hle : q ≤ p
  · obtain ⟨a, m, z, rfl, rfl, rfl⟩ := hpieces q p hle hp
    have hout : insertBoth (a ++ (m ++ z)) (a.length + m.length) entry a.length block =
        a ++ (block ++ (m ++ (entry ++ z))) := by
      rw [insertBoth, if_pos hle, ← List.append_assoc, ← List.length_append, hinsert,
        List.append_assoc, hinsert]
    refine ⟨⟨a, m, z, rfl, .inl ⟨hle, rfl, rfl, hout⟩⟩, ?_⟩
    have hlength : a.length + m.length + block.length = (a ++ (block ++ m)).length := by
      simp only [List.length_append]
      omega
    have hsplit : a ++ (block ++ (m ++ (entry ++ z))) = a ++ (block ++ m) ++ (entry ++ z) := by simp
    rw [if_pos hle, hout, hlength, hsplit, removeAt_append, List.append_assoc, List.append_assoc,
      removeAt_append]
  · obtain ⟨a, m, z, rfl, rfl, rfl⟩ := hpieces p q (by omega) hq
    have hout : insertBoth (a ++ (m ++ z)) a.length entry (a.length + m.length) block =
        a ++ (entry ++ (m ++ (block ++ z))) := by
      rw [insertBoth, if_neg hle, ← List.append_assoc, ← List.length_append, hinsert,
        List.append_assoc, hinsert]
    refine ⟨⟨a, m, z, rfl, .inr ⟨by omega, rfl, rfl, hout⟩⟩, ?_⟩
    have hlength : a.length + m.length + entry.length = (a ++ (entry ++ m)).length := by
      simp only [List.length_append]
      omega
    have hsplit : a ++ (entry ++ (m ++ (block ++ z))) = a ++ (entry ++ m) ++ (block ++ z) := by simp
    rw [if_neg hle, hout, hlength, hsplit, removeAt_append, List.append_assoc, List.append_assoc,
      removeAt_append]

/-- Imports are found from left to right, so those that begin before a place are found first. -/
theorem exists_importSpans_eq (cs : List Char) (start : ℕ) :
    ∃ later, importSpans cs = (importSpans cs).takeWhile (·.start < start) ++ later ∧
      ∀ span ∈ later, start ≤ span.start := by
  refine ⟨(importSpans cs).dropWhile (·.start < start), (List.takeWhile_append_dropWhile ..).symm, ?_⟩
  have hsorted := (pairwise_spans afterImport 0 0 none cs).sublist
    (List.dropWhile_sublist fun span => decide (span.start < start))
  change List.Pairwise _ ((importSpans cs).dropWhile _) at hsorted
  cases hdrop : (importSpans cs).dropWhile (·.start < start) with
  | nil => simp
  | cons first rest =>
    have hfirst : start ≤ first.start := by
      have hhead := List.head?_dropWhile_not (fun span : Span => decide (span.start < start))
        (importSpans cs)
      rw [hdrop] at hhead
      simpa using hhead
    rw [hdrop, List.pairwise_cons] at hsorted
    intro span hspan
    rcases List.mem_cons.mp hspan with rfl | hspan
    · exact hfirst
    · exact hfirst.trans (hsorted.1 span hspan).le

/-- An import line is put in behind the last import before the declaration. -/
theorem importEdit_importBlock (cs line : List Char) (start : ℕ) :
    ImportEdit cs line start (importBlock cs start line).1 (importBlock cs start line).2 := by
  obtain ⟨later, himports, hlater⟩ := exists_importSpans_eq cs start
  rw [importBlock]
  cases hend : importBlockEnd cs start with
  | none =>
    have hnone : (importSpans cs).takeWhile (·.start < start) = [] := by
      simpa [importBlockEnd] using hend
    rw [hnone, List.nil_append] at himports
    exact .top (himports ▸ hlater)
  | some stop =>
    obtain ⟨last, hlast, rfl⟩ := Option.map_eq_some_iff.mp hend
    obtain ⟨front, hfront⟩ := List.getLast?_eq_some_iff.mp hlast
    have hbefore : last.start < start := by
      simpa using List.mem_takeWhile_imp (List.mem_of_getLast? hlast)
    rw [hfront, List.append_assoc, List.singleton_append] at himports
    simp only
    split_ifs with hline
    · exact .below himports hbefore hlater hline
    · rcases importPlace_cases cs start with ⟨hnone, -⟩ | ⟨x, mark, t, r, hcs, -, ht, hplace, hlength⟩
      · rw [hnone] at hend
        cases hend
      rw [hend, Option.some.injEq] at hplace
      have hsplit : cs = (x ++ mark :: t) ++ r := by simp [hcs]
      -- an import that does not end its line has nothing behind it
      obtain rfl : r = [] := by
        refine ht.last.resolve_right fun hnl => hline ?_
        rw [hplace, hlength, hsplit, List.take_left, List.getLast?_append, List.getLast?_cons, hnl]
        rfl
      have hstop : last.stop = cs.length := by rw [hplace, hlength, hsplit, List.append_nil]
      rw [hstop, List.take_length] at hline
      exact .atEnd himports hbefore hlater hstop hline

/-- The character that counts last in a literal stands in it, if none was counted before. -/
theorem exists_of_lastSignificant {rs : List (Char × Role)} {index depth : ℕ}
    {last : Option (ℕ × Char)} {i : ℕ} {c : Char}
    (h : lastSignificant index depth last rs = some (some (i, c))) :
    last = some (i, c) ∨
      ∃ front role back, rs = front ++ (c, role) :: back ∧ i = index + front.length := by
  -- what is found in the rest is found behind the character in front of it
  have hlater : ∀ {r : Char × Role} {rs : List (Char × Role)} {index : ℕ},
      (∃ front role back, rs = front ++ (c, role) :: back ∧ i = index + 1 + front.length) →
        ∃ front role back, r :: rs = front ++ (c, role) :: back ∧ i = index + front.length := by
    rintro r rs index ⟨front, role, back, rfl, hi⟩
    exact ⟨r :: front, role, back, rfl, by rw [hi, List.length_cons]; omega⟩
  have hhere : ∀ {d : Char} {own : Role} {rs : List (Char × Role)} {index : ℕ},
      some (index, d) = some (i, c) →
        ∃ front role back, (d, own) :: rs = front ++ (c, role) :: back ∧ i = index + front.length := by
    intro d own rs index heq
    cases heq
    exact ⟨[], own, rs, rfl, rfl⟩
  fun_induction lastSignificant index depth last rs with
  | case1 => cases h
  | case2 => exact .inl (Option.some.inj h)
  | case3 _ _ _ _ _ _ _ ih | case4 _ _ _ _ _ _ _ ih | case6 _ _ _ _ _ _ _ _ ih | case7 _ _ _ _ _ ih =>
    exact .inr ((ih h).elim hhere hlater)
  | case5 _ _ _ _ _ _ _ _ ih | case8 _ _ _ _ _ _ _ ih => exact (ih h).imp_right hlater

/-- The place for an entry lies in the script. -/
theorem Anchor.index_le_of_locate {anchor : Anchor} {cs : List Char} {point : InsertionPoint}
    (h : anchor.locate cs = some point) : point.index ≤ cs.length := by
  unfold Anchor.locate at h
  split at h
  · cases h
    exact Nat.le_refl _
  · obtain ⟨d, hfind, h⟩ := Option.bind_eq_some_iff.mp h
    have hstop := (le_length_of_mem_spans (List.mem_of_find?_eq_some hfind)).2
    obtain ⟨last, hlast, h⟩ := Option.bind_eq_some_iff.mp h
    split at h
    · cases h
      obtain hnone | ⟨front, role, back, hroles, rfl⟩ := exists_of_lastSignificant hlast
      · cases hnone
      have hlength := congrArg List.length hroles
      rw [length_roles, List.length_drop, List.length_append, List.length_cons] at hlength
      simp only
      omega
    · cases h
      exact hstop

/-- A declaration begins inside the script. -/
theorem Anchor.le_of_declarationStart {anchor : Anchor} {cs : List Char} {start : ℕ}
    (h : anchor.declarationStart cs = some start) : start ≤ cs.length := by
  rw [Anchor.declarationStart] at h
  split at h
  · obtain ⟨d, hfind, rfl⟩ := Option.map_eq_some_iff.mp h
    exact (le_length_of_mem_spans (List.mem_of_find?_eq_some hfind)).1
  · cases h
    exact Nat.le_refl _

/-- Where there is a place for an entry there is a declaration. -/
theorem Anchor.exists_declarationStart {anchor : Anchor} {cs : List Char} {point : InsertionPoint}
    (h : anchor.locate cs = some point) : ∃ start, anchor.declarationStart cs = some start := by
  unfold Anchor.locate at h
  rw [Anchor.declarationStart]
  split at h
  · next hparts => exact ⟨_, by rw [hparts]⟩
  · next hparts =>
    obtain ⟨d, hfind, -⟩ := Option.bind_eq_some_iff.mp h
    exact ⟨d.start, by simp only [hparts, hfind, Option.map_some]⟩

/-- A patch fails exactly if there is no place for the entry. Otherwise it is the script with the entry
put in at that place, behind a separator where one is needed and on a line of its own in a literal, and
with the import line put in behind the last import before the declaration. -/
theorem applyPatch_splices (cs : List Char) (anchor : Anchor) (fragment : List Char) :
    (∀ line, applyPatch cs anchor fragment line = none ↔ anchor.locate cs = none) ∧
    ∀ point, anchor.locate cs = some point →
      ∃ start entry, anchor.declarationStart cs = some start ∧
        entry = (if point.needsSeparator then [if anchor = .fileEnd then '\n' else ','] else []) ++
          ((if anchor = .fileEnd then [] else ['\n']) ++ fragment) ∧
        point.index ≤ cs.length ∧
        applyPatch cs anchor fragment none =
          some (cs.take point.index ++ entry ++ cs.drop point.index) ∧
        ∀ line, ∃ q block out, q ≤ cs.length ∧ ImportEdit cs line start q block ∧
          applyPatch cs anchor fragment (some line) = some out ∧
          Spliced cs point.index entry q block out := by
  refine ⟨fun line => by rw [applyPatch, Option.map_eq_none_iff], fun point hpoint => ?_⟩
  obtain ⟨start, hstart⟩ := Anchor.exists_declarationStart hpoint
  have hindex := Anchor.index_le_of_locate hpoint
  have hentry : entryBlock anchor point.needsSeparator fragment =
      (if point.needsSeparator then [if anchor = .fileEnd then '\n' else ','] else []) ++
        ((if anchor = .fileEnd then [] else ['\n']) ++ fragment) := by
    rw [entryBlock]
    split_ifs <;> rfl
  refine ⟨start, _, hstart, hentry, hindex, ?_, fun line => ?_⟩
  · rw [applyPatch, hpoint]
    rfl
  · have hplace : importPlace cs start = (importBlock cs start line).1 := by
      obtain ⟨lead, trail, hblock, -⟩ := exists_importBlock_eq cs line start
      rw [hblock]
    have hle : (importBlock cs start line).1 ≤ cs.length := hplace ▸ importPlace_le cs start
    refine ⟨_, _, _, hle, importEdit_importBlock cs line start, ?_,
      spliced_insertBoth hindex hle _ _⟩
    rw [applyPatch, hpoint, Option.map_some, hstart]
    rfl

/-- Both blocks go to the end of a script that ends with an import, its line not ended: the import line
comes first, below the old one, and the entry below it. -/
theorem applyPatch_splices_together :
    Anchor.fileEnd.locate "import a from 'ä';".toList = some ⟨18, true⟩ ∧
      applyPatch "import a from 'ä';".toList .fileEnd "export * from './b';\n".toList
          (some "import b from 'b';".toList) =
        some "import a from 'ä';\nimport b from 'b';\nexport * from './b';\n".toList ∧
      ∃ q block out, ImportEdit "import a from 'ä';".toList "import b from 'b';".toList 18 q block ∧
        applyPatch "import a from 'ä';".toList .fileEnd "export * from './b';\n".toList
          (some "import b from 'b';".toList) = some out ∧
        Spliced "import a from 'ä';".toList 18 "\nexport * from './b';\n".toList q block out := by
  have hlocate : Anchor.fileEnd.locate "import a from 'ä';".toList = some ⟨18, true⟩ := by
    decide +kernel
  obtain ⟨start, entry, hstart, rfl, -, -, hline⟩ :=
    (applyPatch_splices "import a from 'ä';".toList .fileEnd "export * from './b';\n".toList).2 _ hlocate
  obtain rfl : 18 = start := Option.some.inj hstart
  obtain ⟨q, block, out, -, hedit, hout, hspliced⟩ := hline "import b from 'b';".toList
  have hpatch : applyPatch "import a from 'ä';".toList .fileEnd "export * from './b';\n".toList
      (some "import b from 'b';".toList) =
        some "import a from 'ä';\nimport b from 'b';\nexport * from './b';\n".toList := by
    decide +kernel
  exact ⟨hlocate, hpatch, q, block, out, hedit, hout, hspliced⟩

end AppScaffold.Script
