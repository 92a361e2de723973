import AppScaffold.Proofs.Script.Declaration
import Mathlib.Data.List.Basic
import Mathlib.Tactic.Common

/-!
# The literal of a declaration

A literal reaches from the bracket that opens it to the one that closes it again. Its content are the
characters between them that are neither comments nor blanks between tokens. The place for a new entry
lies behind the last character that counts as content, so that comments and blanks at the end of the
literal stay behind the entry.
-/

namespace AppScaffold.Script

/-- The number of open brackets behind a character, `depth` being open before it; nothing if it
closes one that is not open. -/
def depthStep (depth : Nat) : Char × Role → Option Nat
  | (c, .code) =>
    if isClosing c then (if depth = 0 then none else some (depth - 1))
    else if isOpening c then some (depth + 1)
    else some depth
  | _ => some depth

/-- The number of open brackets behind some characters; nothing if more are closed than are open. -/
def depthAfter : Nat → List (Char × Role) → Option Nat
  | depth, [] => some depth
  | depth, r :: rs => (depthStep depth r).bind fun d => depthAfter d rs

/-- The number of characters before the bracket that closes one more than are open; nothing if there
is no such bracket. -/
def closeIndex : Nat → List (Char × Role) → Option Nat
  | _, [] => none
  | depth, r :: rs =>
    match depthStep depth r with
    | none => some 0
    | some d => (closeIndex d rs).map (· + 1)

/-- The character ends an entry as far as the search for the last entry is concerned. -/
def isCounted : Char × Role → Bool
  | (c, .code) => !isAsciiBlank c
  | (_, .quoteEnd) => true
  | _ => false

/-- The last counted character with its index, or `last` if there is none. -/
def lastCounted : Nat → Option (Nat × Char) → List (Char × Role) → Option (Nat × Char)
  | _, last, [] => last
  | index, last, r :: rs =>
    lastCounted (index + 1) (if isCounted r then some (index, r.1) else last) rs

/-- The characters that are content: all but comments and the blanks between tokens. -/
def significant (rs : List (Char × Role)) : List Char :=
  rs.filterMap fun
    | (c, .code) => if isAsciiBlank c then none else some c
    | (c, .quoteStart) | (c, .quoted) | (c, .quoteEnd) => some c
    | (_, .commentStart) | (_, .comment) => none

/-- What is read first counts first. -/
theorem significant_append (rs rs' : List (Char × Role)) :
    significant (rs ++ rs') = significant rs ++ significant rs' :=
  List.filterMap_append

/-- A bracket is no blank. -/
theorem isAsciiBlank_of_bracket {c : Char} (h : isClosing c = true ∨ isOpening c = true) :
    isAsciiBlank c = false := by
  simp only [isClosing, isOpening, Bool.or_eq_true, beq_iff_eq] at h
  rcases h with ((rfl | rfl) | rfl) | ((rfl | rfl) | rfl) <;> decide

/-- A character closes too much exactly when it is a closing bracket of code with nothing open. -/
theorem depthStep_eq_none_iff {depth : Nat} {c : Char} {role : Role} :
    depthStep depth (c, role) = none ↔ depth = 0 ∧ role = .code ∧ isClosing c = true := by
  cases role with
  | code =>
    rw [depthStep]
    by_cases hclose : isClosing c = true
    · rw [if_pos hclose]
      by_cases hdepth : depth = 0 <;> simp [hdepth, hclose]
    · rw [if_neg hclose]
      split_ifs <;> simp [hclose]
  | _ => simp [depthStep]

/-- Depths are counted one piece after the other. -/
theorem depthAfter_append (depth : Nat) (xs ys : List (Char × Role)) :
    depthAfter depth (xs ++ ys) = (depthAfter depth xs).bind fun d => depthAfter d ys := by
  induction xs generalizing depth with
  | nil => rfl
  | cons x xs ih => simp only [List.cons_append, depthAfter, ih, Option.bind_assoc]

/-- A literal ends with the first bracket that closes more than was opened inside it. -/
theorem closeIndex_eq_some_iff {depth n : Nat} {rs : List (Char × Role)} :
    closeIndex depth rs = some n ↔
      ∃ xs c ys, rs = xs ++ (c, .code) :: ys ∧ xs.length = n ∧ depthAfter depth xs = some 0 ∧
        isClosing c = true := by
  induction rs generalizing depth n with
  | nil => simp [closeIndex]
  | cons r rs ih =>
    obtain ⟨c, role⟩ := r
    rw [closeIndex]
    cases hstep : depthStep depth (c, role) with
    | none =>
      obtain ⟨rfl, rfl, hclose⟩ := depthStep_eq_none_iff.mp hstep
      simp only [Option.some.injEq]
      constructor
      · rintro rfl
        exact ⟨[], c, rs, rfl, rfl, rfl, hclose⟩
      · rintro ⟨xs, d, ys, hsplit, rfl, hdepth, -⟩
        cases xs with
        | nil => rfl
        | cons x xs =>
          obtain ⟨rfl, -⟩ := List.cons.inj hsplit
          rw [depthAfter, hstep] at hdepth
          cases hdepth
    | some d =>
      simp only [Option.map_eq_some_iff, ih]
      constructor
      · rintro ⟨_, ⟨xs, e, ys, rfl, rfl, hdepth, hclose⟩, rfl⟩
        exact ⟨(c, role) :: xs, e, ys, rfl, rfl, by rw [depthAfter, hstep]; exact hdepth, hclose⟩
      · rintro ⟨xs, e, ys, hsplit, rfl, hdepth, hclose⟩
        cases xs with
        | nil =>
          obtain ⟨hr, -⟩ := List.cons.inj hsplit
          obtain ⟨rfl, rfl⟩ := Prod.mk.inj hr
          rw [depthAfter, Option.some.injEq] at hdepth
          rw [depthStep_eq_none_iff.mpr ⟨hdepth, rfl, hclose⟩] at hstep
          cases hstep
        | cons x xs =>
          obtain ⟨rfl, rfl⟩ := List.cons.inj hsplit
          rw [depthAfter, hstep] at hdepth
          exact ⟨xs.length, ⟨xs, e, ys, rfl, rfl, hdepth, hclose⟩, rfl⟩

/-- One character of a literal ends it, or the search goes on behind it. -/
theorem lastSignificant_cons (index depth : Nat) (last : Option (Nat × Char)) (r : Char × Role)
    (rs : List (Char × Role)) :
    lastSignificant index (depth + 1) last (r :: rs) =
      match depthStep depth r with
      | none => some last
      | some d =>
        lastSignificant (index + 1) (d + 1) (if isCounted r then some (index, r.1) else last) rs := by
  obtain ⟨c, role⟩ := r
  cases role with
  | code =>
    rw [lastSignificant, depthStep, isCounted]
    by_cases hclose : isClosing c = true
    · have hblank := isAsciiBlank_of_bracket (.inl hclose)
      rw [if_pos hclose, if_pos hclose, hblank, Bool.not_false, if_pos rfl]
      cases depth with
      | zero => rfl
      | succ d => rfl
    · rw [if_neg hclose, if_neg hclose]
      by_cases hopen : isOpening c = true
      · have hblank := isAsciiBlank_of_bracket (.inr hopen)
        rw [if_pos hopen, if_pos hopen, hblank, Bool.not_false, if_pos rfl]
      · rw [if_neg hopen, if_neg hopen]
        cases hblank : isAsciiBlank c <;> rfl
  | quoteEnd => rfl
  | _ => rfl

/-- The search for the last entry finds the last counted character of the literal, if the literal is
closed. -/
theorem lastSignificant_eq (index depth : Nat) (last : Option (Nat × Char))
    (rs : List (Char × Role)) :
    lastSignificant index (depth + 1) last rs =
      (closeIndex depth rs).map fun n => lastCounted index last (rs.take n) := by
  induction rs generalizing index depth last with
  | nil => rfl
  | cons r rs ih =>
    rw [lastSignificant_cons, closeIndex]
    cases depthStep depth r with
    | none => rfl
    | some d =>
      simp only [ih, Option.map_map]
      rfl

/-- The last counted character divides the characters; behind it nothing is counted. -/
theorem lastCounted_cases (index : Nat) (last : Option (Nat × Char)) (rs : List (Char × Role)) :
    ∃ xs ys, rs = xs ++ ys ∧ (∀ r ∈ ys, isCounted r = false) ∧
      (xs = [] ∧ lastCounted index last rs = last ∨
        ∃ xs' r, xs = xs' ++ [r] ∧ isCounted r = true ∧
          lastCounted index last rs = some (index + xs'.length, r.1)) := by
  induction rs generalizing index last with
  | nil => exact ⟨[], [], rfl, by simp, .inl ⟨rfl, rfl⟩⟩
  | cons r rs ih =>
    obtain ⟨xs, ys, rfl, hys, hcases⟩ := ih (index + 1) (if isCounted r then some (index, r.1) else last)
    rcases hcases with ⟨rfl, hlast⟩ | ⟨xs', s, rfl, hs, hlast⟩
    · cases hr : isCounted r with
      | true =>
        refine ⟨[r], ys, rfl, hys, .inr ⟨[], r, rfl, hr, ?_⟩⟩
        rw [lastCounted, hlast, if_pos hr]
        rfl
      | false =>
        refine ⟨[], r :: ys, rfl, ?_, .inl ⟨rfl, ?_⟩⟩
        · intro t ht
          rcases List.mem_cons.mp ht with rfl | ht
          · exact hr
          · exact hys t ht
        · rw [lastCounted, hlast, if_neg (by rw [hr]; decide)]
    · refine ⟨r :: xs' ++ [s], ys, by simp, hys, .inr ⟨r :: xs', s, rfl, hs, ?_⟩⟩
      rw [lastCounted, hlast, List.length_cons, Nat.add_assoc, Nat.add_comm 1]

/-- A counted character stands at the end of a token, so that the reader is in code behind it and
looks ahead for nothing there but the second half of a comment mark. -/
theorem step_of_isCounted {mode : Mode} {c : Char} {next next' : Option Char}
    (hc : isCounted (c, (mode.step c next).1) = true) (hslash : next' ≠ some '/')
    (hstar : next' ≠ some '*') :
    mode.step c next' = mode.step c next ∧ (mode.step c next).2 = .code := by
  cases mode with
  | code =>
    rw [Mode.step] at hc
    split_ifs at hc with hline hblock hquote
    · cases hc
    · cases hc
    · cases hc
    · simp only [Mode.step, hslash, hstar, hline, hblock, hquote, and_false, if_false,
        Bool.false_eq_true, and_self]
  | line =>
    rw [Mode.step] at hc
    split_ifs at hc with hnl
    · rw [hnl] at hc
      exact absurd hc (by decide)
    · cases hc
  | quote mark =>
    rw [Mode.step] at hc
    split_ifs at hc with hback hmark
    · cases hc
    · simp only [Mode.step, if_neg hback, if_pos hmark, and_self]
    · cases hc
  | _ => cases hc

/-- The reader leaves a string only over a counted character. -/
theorem exists_isCounted_of_quote {next : Option Char} {mode : Mode} {mark : Char}
    (hmode : mode = .quote mark ∨ mode = .escape mark) {cs : List Char}
    (hcode : modeAfter next mode cs = .code) :
    ∃ r ∈ rolesBefore next mode cs, isCounted r = true := by
  induction cs generalizing mode with
  | nil => rcases hmode with rfl | rfl <;> cases hcode
  | cons c cs ih =>
    rw [modeAfter] at hcode
    rw [rolesBefore]
    rcases hmode with rfl | rfl
    · rw [Mode.step] at hcode ⊢
      split_ifs at hcode ⊢ with hback hmark
      · obtain ⟨r, hr, hcount⟩ := ih (.inr rfl) hcode
        exact ⟨r, List.mem_cons_of_mem _ hr, hcount⟩
      · exact ⟨_, List.mem_cons_self, rfl⟩
      · obtain ⟨r, hr, hcount⟩ := ih (.inl rfl) hcode
        exact ⟨r, List.mem_cons_of_mem _ hr, hcount⟩
    · obtain ⟨r, hr, hcount⟩ := ih (.inl rfl) hcode
      exact ⟨r, List.mem_cons_of_mem _ hr, hcount⟩

/-- A character between tokens that is not counted is no content. -/
theorem significant_singleton {mode : Mode} {c : Char} {next : Option Char}
    (hbefore : ∀ mark, mode ≠ .quote mark ∧ mode ≠ .escape mark)
    (hafter : ∀ mark, (mode.step c next).2 ≠ .quote mark)
    (hcount : isCounted (c, (mode.step c next).1) = false) :
    significant [(c, (mode.step c next).1)] = [] := by
  have hcode : isCounted (c, .code) = false → significant [(c, .code)] = [] := by
    intro h
    have hblank : isAsciiBlank c = true := by simpa [isCounted] using h
    simp [significant, hblank]
  cases mode with
  | code =>
    rw [Mode.step] at hafter hcount ⊢
    split_ifs at hafter hcount ⊢ with hline hblock hquote
    · rfl
    · rfl
    · exact absurd rfl (hafter c)
    · exact hcode hcount
  | line =>
    rw [Mode.step] at hcount ⊢
    split_ifs at hcount ⊢ with hnl
    · exact hcode hcount
    · rfl
  | quote mark => exact absurd rfl (hbefore mark).1
  | escape mark => exact absurd rfl (hbefore mark).2
  | _ => rfl

/-- A piece between tokens in which nothing is counted has no content. -/
theorem significant_of_not_isCounted {next : Option Char} {mode : Mode}
    (hmode : ∀ mark, mode ≠ .quote mark ∧ mode ≠ .escape mark) {cs : List Char}
    (hcode : modeAfter next mode cs = .code)
    (hcount : ∀ r ∈ rolesBefore next mode cs, isCounted r = false) :
    significant (rolesBefore next mode cs) = [] := by
  induction cs generalizing mode with
  | nil => rfl
  | cons c cs ih =>
    have hquote : ∀ mark, (mode.step c (cs.head?.or next)).2 ≠ .quote mark ∧
        (mode.step c (cs.head?.or next)).2 ≠ .escape mark := by
      intro mark
      have hnone : ∀ m, m = .quote mark ∨ m = .escape mark →
          (mode.step c (cs.head?.or next)).2 ≠ m := by
        rintro m hm rfl
        obtain ⟨r, hr, hr'⟩ := exists_isCounted_of_quote hm hcode
        rw [hcount r (List.mem_cons_of_mem _ hr)] at hr'
        cases hr'
      exact ⟨hnone _ (.inl rfl), hnone _ (.inr rfl)⟩
    have hrest := ih hquote hcode fun r hr => hcount r (List.mem_cons_of_mem _ hr)
    have hhere := significant_singleton hmode (fun mark => (hquote mark).1)
      (hcount _ List.mem_cons_self)
    rw [rolesBefore, ← List.singleton_append, significant_append, hhere, hrest]
    rfl

/-- The last counted character of a piece is its last character of content. -/
theorem getLast?_significant {xs : List (Char × Role)} {r : Char × Role}
    (hr : isCounted r = true) : (significant (xs ++ [r])).getLast? = some r.1 := by
  have hone : significant [r] = [r.1] := by
    obtain ⟨c, role⟩ := r
    cases role with
    | code =>
      have hblank : isAsciiBlank c = false := by simpa [isCounted] using hr
      simp [significant, hblank]
    | quoteEnd => rfl
    | _ => cases hr
  rw [significant_append, hone, List.getLast?_concat]

/-- The literal of a declaration in a script. -/
structure Literal where
  /-- The number of characters before the declaration. -/
  start : Nat
  /-- The script up to and including the bracket that opens the literal. -/
  before : List Char
  /-- What stands between the brackets. -/
  inside : List Char
  /-- The script from the bracket that closes the literal. -/
  after : List Char

/-- The script of a literal. -/
def Literal.script (l : Literal) : List Char := l.before ++ (l.inside ++ l.after)

/-- The characters of the literal that are content. -/
def Literal.content (l : Literal) : List Char := significant (roles .code l.inside)

/-- The literal of the first declaration of the anchor in code, if there is one and it is closed. -/
def Anchor.literal (anchor : Anchor) (cs : List Char) : Option Literal := do
  let parts ← anchor.parts
  let declaration ← findDeclaration cs parts
  let inside := cs.drop declaration.stop
  let size ← closeIndex 0 (roles .code inside)
  some ⟨declaration.start, cs.take declaration.stop, inside.take size, inside.drop size⟩

/-- What is read between two brackets is closed: it begins and ends in code, and it closes what it
opens. -/
structure IsClosed (inside : List Char) : Prop where
  /-- No string or comment is left open. -/
  code : modeAfter none .code inside = .code
  /-- Every bracket is closed, and none is closed that was not opened. -/
  depth : depthAfter 0 (roles .code inside) = some 0

/-- A closing bracket is no half of a two-character mark and ends no line. -/
theorem ne_of_isClosing {c : Char} (h : isClosing c = true) : c ≠ '/' ∧ c ≠ '*' ∧ c ≠ '\n' := by
  simp only [isClosing, Bool.or_eq_true, beq_iff_eq] at h
  rcases h with (rfl | rfl) | rfl <;> decide

/-- The roles of a closed piece are the same in front of a closing bracket. -/
theorem roles_append_of_isClosing {inside : List Char} {c : Char} (hc : isClosing c = true)
    (t : List Char) :
    roles .code (inside ++ c :: t) =
      roles .code inside ++ roles (modeAfter none .code inside) (c :: t) := by
  obtain ⟨hslash, hstar, -⟩ := ne_of_isClosing hc
  have hread := read_unmarked hslash hstar .code inside
  rw [roles_append, List.head?_cons, hread.1, hread.2, ← roles_eq_rolesBefore]

/-- The literal ends behind a closed piece, at a closing bracket. -/
theorem closeIndex_roles_eq_some_iff {cs : List Char} {n : Nat} :
    closeIndex 0 (roles .code cs) = some n ↔
      ∃ x c t, cs = x ++ c :: t ∧ x.length = n ∧ IsClosed x ∧ isClosing c = true := by
  rw [closeIndex_eq_some_iff]
  constructor
  · rintro ⟨xs, c, ys, hsplit, rfl, hdepth, hclose⟩
    have hcs : cs = xs.map Prod.fst ++ c :: ys.map Prod.fst := by
      rw [← map_fst_roles .code cs, hsplit, List.map_append, List.map_cons]
    rw [hcs, roles_append_of_isClosing hclose] at hsplit
    obtain ⟨hxs, hys⟩ := List.append_inj hsplit (by rw [length_roles, List.length_map])
    refine ⟨_, c, _, hcs, List.length_map _, ⟨?_, by rw [hxs]; exact hdepth⟩, hclose⟩
    obtain ⟨hslash, hstar, hnl⟩ := ne_of_isClosing hclose
    rw [roles] at hys
    have hrole := (Prod.mk.inj (List.cons.inj hys).1).2
    generalize modeAfter none .code (xs.map Prod.fst) = mode at hrole ⊢
    cases mode with
    | code => rfl
    | line =>
      rw [Mode.step, if_neg hnl] at hrole
      cases hrole
    | quote mark =>
      rw [Mode.step] at hrole
      split_ifs at hrole
    | _ => cases hrole
  · rintro ⟨x, c, t, rfl, rfl, hx, hclose⟩
    refine ⟨roles .code x, c, roles .code t, ?_, length_roles .code x, hx.depth, hclose⟩
    have hquote : isQuote c = false := by
      simp only [isClosing, Bool.or_eq_true, beq_iff_eq] at hclose
      rcases hclose with (rfl | rfl) | rfl <;> decide
    rw [roles_append_of_isClosing hclose, hx.code, roles]
    simp [Mode.step, (ne_of_isClosing hclose).1, hquote]

/-- A literal is found exactly where a declaration opens a bracket, something closed follows, and a
bracket closes. -/
theorem literal_eq_some_iff {mark : Char} {parts : List Part} {anchor : Anchor}
    (hparts : anchor.parts = some parts) (hd : IsDeclaration mark parts) {cs : List Char}
    {l : Literal} :
    anchor.literal cs = some l ↔
      cs = l.script ∧ findDeclaration cs parts = some ⟨l.start, l.before.length⟩ ∧
        IsClosed l.inside ∧ ∃ c t, l.after = c :: t ∧ isClosing c = true := by
  simp only [Anchor.literal, hparts, Option.bind_eq_bind, Option.bind_some,
    Option.bind_eq_some_iff, closeIndex_roles_eq_some_iff, Option.some.injEq]
  constructor
  · rintro ⟨d, hfind, n, ⟨x, c, t, hdrop, rfl, hx, hclose⟩, rfl⟩
    obtain ⟨a, m, r, rfl, -, rfl, -⟩ := hd.split hfind
    have hstop : a.length + m.length = (a ++ m).length := by rw [List.length_append]
    rw [← List.append_assoc, hstop, List.drop_left] at hdrop
    subst hdrop
    refine ⟨?_, ?_, ?_, c, t, ?_, hclose⟩
    · simp only [Literal.script, List.take_append_drop]
    · rw [hfind]
      simp only [Option.some.injEq, Span.mk.injEq, true_and]
      rw [← List.append_assoc, hstop, List.take_left]
    · simp only
      rw [← List.append_assoc, hstop, List.drop_left, List.take_left]
      exact hx
    · simp only
      rw [← List.append_assoc, hstop, List.drop_left, List.drop_left]
  · rintro ⟨rfl, hfind, hx, c, t, hafter, hclose⟩
    obtain ⟨start, before, inside, after⟩ := l
    simp only at hafter hx hfind
    subst hafter
    refine ⟨_, hfind, inside.length, ⟨inside, c, t, ?_, rfl, hx, hclose⟩, ?_⟩
    · rw [Literal.script, List.drop_left]
    · simp only [Literal.script, List.take_left, List.drop_left]

/-- The declaration of a literal is found wherever the script begins with what stands before the
literal. -/
theorem findDeclaration_before {mark : Char} {parts : List Part} {anchor : Anchor}
    (hparts : anchor.parts = some parts) (hd : IsDeclaration mark parts) {cs : List Char}
    {l : Literal} (hl : anchor.literal cs = some l) (rest : List Char) :
    findDeclaration (l.before ++ rest) parts = some ⟨l.start, l.before.length⟩ := by
  obtain ⟨rfl, hfind, -⟩ := (literal_eq_some_iff hparts hd).mp hl
  obtain ⟨a, m, r, hscript, hm, hspan, -⟩ := hd.split hfind
  obtain ⟨hstart, hstop⟩ := Span.mk.inj hspan
  have hbefore : l.before = a ++ m := by
    rw [Literal.script, ← List.append_assoc a] at hscript
    exact (List.append_inj hscript (by rw [List.length_append, hstop])).1
  rw [hscript, hstart, hstop] at hfind
  have hcongr := hd.findDeclaration_congr hm hfind rest
  rw [hstop, hbefore, hstart, List.append_assoc]
  exact hcongr

/-- What stands inside the brackets can be exchanged for anything that is closed. -/
theorem literal_with_inside {mark : Char} {parts : List Part} {anchor : Anchor}
    (hparts : anchor.parts = some parts) (hd : IsDeclaration mark parts) {cs : List Char}
    {l : Literal} (hl : anchor.literal cs = some l) {inside : List Char} (h : IsClosed inside) :
    anchor.literal { l with inside := inside }.script = some { l with inside := inside } := by
  obtain ⟨-, -, -, hafter⟩ := (literal_eq_some_iff hparts hd).mp hl
  exact (literal_eq_some_iff hparts hd).mpr
    ⟨rfl, findDeclaration_before hparts hd hl (inside ++ l.after), h, hafter⟩

/-- The literal of a declaration begins behind the start of the declaration. -/
theorem start_lt_before {mark : Char} {parts : List Part} {anchor : Anchor}
    (hparts : anchor.parts = some parts) (hd : IsDeclaration mark parts) {cs : List Char}
    {l : Literal} (hl : anchor.literal cs = some l) : l.start < l.before.length := by
  have hfind := findDeclaration_before hparts hd hl []
  have hlt := start_lt_of_findDeclaration hfind
  rwa [List.append_nil] at hlt

/-- A declaration begins where its literal is found. -/
theorem declarationStart_eq {mark : Char} {parts : List Part} {anchor : Anchor}
    (hparts : anchor.parts = some parts) (hd : IsDeclaration mark parts) {cs : List Char}
    {l : Literal} (hl : anchor.literal cs = some l) :
    anchor.declarationStart cs = some l.start := by
  obtain ⟨-, hfind, -⟩ := (literal_eq_some_iff hparts hd).mp hl
  rw [Anchor.declarationStart, hparts]
  simp only [hfind, Option.map_some]

/-- A piece of code without a declaration, put in before the declaration of a literal, moves the
literal and changes nothing else. -/
theorem literal_insert {mark : Char} {parts : List Part} {anchor : Anchor}
    (hparts : anchor.parts = some parts) (hd : IsDeclaration mark parts) {p q r : List Char}
    (hp : Sealed parts p) (hp' : Settled p) (hq : Sealed parts q) (hq' : Settled q)
    (hnone : findDeclaration q parts = none) {l : Literal} (hl : anchor.literal (p ++ r) = some l)
    (hstart : p.length ≤ l.start) :
    anchor.literal (p ++ (q ++ r)) =
      some ⟨l.start + q.length, p ++ (q ++ l.before.drop p.length), l.inside, l.after⟩ := by
  obtain ⟨hscript, hfind, hclosed, hafter⟩ := (literal_eq_some_iff hparts hd).mp hl
  have hbefore := start_lt_before hparts hd hl
  have hr : r = l.before.drop p.length ++ (l.inside ++ l.after) := by
    have hdrop := congrArg (List.drop p.length) hscript
    rwa [List.drop_left, Literal.script, List.drop_append_of_le_length (by omega)] at hdrop
  refine (literal_eq_some_iff hparts hd).mpr ⟨?_, ?_, hclosed, hafter⟩
  · rw [Literal.script, hr]
    simp only [List.append_assoc]
  · rw [findDeclaration_insert hp hp' hq hq' hnone hfind hstart, Option.some.injEq, Span.shift,
      Span.mk.injEq]
    refine ⟨rfl, ?_⟩
    simp only [List.length_append, List.length_drop]
    omega

end AppScaffold.Script
