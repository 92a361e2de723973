import AppScaffold.Proofs.Script.Literal
import AppScaffold.Script.Patch
import Mathlib.Data.List.Basic
import Mathlib.Tactic.Common

/-!
# Adding entries to a literal

An entry that is closed in itself goes behind the last entry of a literal, whatever comments, blanks
and brackets in strings stand around it. The literal keeps its declaration and its closing bracket,
and its content grows by the content of the entry, with one comma before it where one is needed. By
induction this holds for any number of entries added one after the other.
-/

namespace AppScaffold.Script

/-- The text of an entry that can stand anywhere between entries: it begins and ends in code, closes
what it opens, has content, and cannot form a comment mark with what follows it. -/
structure SelfContained (fragment : List Char) : Prop where
  /-- No string, comment or bracket is left open, and none is closed that was not opened. -/
  closed : IsClosed fragment
  /-- There is content. -/
  content : significant (roles .code fragment) ≠ []
  /-- The last character is no slash. -/
  slash : fragment.getLast? ≠ some '/'

/-- The content of a literal with one more entry. -/
def addEntry (content fragment : List Char) : List Char :=
  content ++ (if content = [] ∨ content.getLast? = some ',' then [] else [',']) ++
    significant (roles .code fragment)

/-- A comma comes first exactly behind content that ends with anything but a comma. -/
theorem addEntry_eq (content fragment : List Char) :
    addEntry content fragment =
      content ++ ((if content.getLast?.any (· != ',') then [','] else []) ++
        significant (roles .code fragment)) := by
  rw [addEntry, List.append_assoc]
  rcases List.eq_nil_or_concat' content with rfl | ⟨e, c, rfl⟩
  · rfl
  · by_cases hc : c = ',' <;> simp [hc]

/-- The script with entries added one after the other, none of them with an import. -/
def addEntries (anchor : Anchor) (cs : List Char) (fragments : List (List Char)) :
    Option (List Char) :=
  fragments.foldlM (fun cs fragment => applyPatch cs anchor fragment none) cs

/-- Two closed pieces are read one after the other, and closed together, if no comment mark forms
where they meet. -/
theorem IsClosed.append {p q : List Char} (hp : IsClosed p) (hq : IsClosed q)
    (hread : rolesBefore q.head? .code p = roles .code p ∧ modeAfter q.head? .code p = .code) :
    roles .code (p ++ q) = roles .code p ++ roles .code q ∧ IsClosed (p ++ q) := by
  have hroles : roles .code (p ++ q) = roles .code p ++ roles .code q := by
    rw [roles_append, hread.1, hread.2]
  refine ⟨hroles, ?_, ?_⟩
  · rw [modeAfter_append, Option.or_none, hread.2]
    exact hq.code
  · rw [hroles, depthAfter_append, hp.depth]
    exact hq.depth

/-- A closed piece that does not end with a slash is read in the same way whatever follows. -/
theorem IsClosed.read {p : List Char} (hp : IsClosed p) (hslash : p.getLast? ≠ some '/')
    (next : Option Char) :
    rolesBefore next .code p = roles .code p ∧ modeAfter next .code p = .code := by
  rw [roles_eq_rolesBefore]
  exact read_next hp.code hslash next

/-- The inside of a literal is cut behind its last counted character, if it has one. -/
structure Cut (entries trailer : List Char) : Prop where
  /-- The cut lies in code. -/
  code : modeAfter trailer.head? .code entries = .code
  /-- Behind the cut nothing is counted. -/
  uncounted : ∀ r ∈ roles .code trailer, isCounted r = false
  /-- Before the cut stands a counted character, or nothing. -/
  ends : entries = [] ∨ ∃ e c, entries = e ++ [c] ∧
    isCounted (c, ((modeAfter (some c) .code e).step c trailer.head?).1) = true

/-- What was counted before decides if nothing is counted later. -/
theorem lastCounted_append (index : Nat) (last : Option (Nat × Char)) (xs ys : List (Char × Role)) :
    lastCounted index last (xs ++ ys) =
      lastCounted (index + xs.length) (lastCounted index last xs) ys := by
  induction xs generalizing index last with
  | nil => rfl
  | cons x xs ih =>
    rw [List.cons_append, lastCounted, lastCounted, ih, List.length_cons, Nat.add_assoc,
      Nat.add_comm 1]

/-- Where nothing is counted the last counted character stays. -/
theorem lastCounted_of_not_isCounted (index : Nat) (last : Option (Nat × Char))
    {rs : List (Char × Role)} (h : ∀ r ∈ rs, isCounted r = false) :
    lastCounted index last rs = last := by
  induction rs generalizing index with
  | nil => rfl
  | cons r rs ih =>
    rw [lastCounted, if_neg (by rw [h r List.mem_cons_self]; decide)]
    exact ih (index + 1) fun s hs => h s (List.mem_cons_of_mem _ hs)

/-- Where nothing is counted no bracket opens or closes. -/
theorem depthAfter_of_not_isCounted {rs : List (Char × Role)}
    (h : ∀ r ∈ rs, isCounted r = false) (depth : Nat) : depthAfter depth rs = some depth := by
  induction rs with
  | nil => rfl
  | cons r rs ih =>
    have hstep : depthStep depth r = some depth := by
      obtain ⟨c, role⟩ := r
      have hr := h _ List.mem_cons_self
      cases role with
      | code =>
        have hblank : isAsciiBlank c = true := by simpa [isCounted] using hr
        have hbracket : ¬(isClosing c = true ∨ isOpening c = true) := by
          intro h
          rw [isAsciiBlank_of_bracket h] at hblank
          cases hblank
        rw [not_or] at hbracket
        rw [depthStep, if_neg hbracket.1, if_neg hbracket.2]
      | _ => rfl
    rw [depthAfter, hstep, Option.bind_some]
    exact ih fun s hs => h s (List.mem_cons_of_mem _ hs)

/-- A closed piece in which nothing is counted has no content. -/
theorem IsClosed.significant_eq_nil {p : List Char} (hp : IsClosed p)
    (h : ∀ r ∈ roles .code p, isCounted r = false) : significant (roles .code p) = [] := by
  have hcode := hp.code
  rw [roles_eq_rolesBefore] at h ⊢
  exact significant_of_not_isCounted (fun _ => by simp) hcode h

namespace Cut

variable {entries trailer : List Char}

/-- A literal is read in two pieces, before the cut and behind it. -/
theorem roles_append (hcut : Cut entries trailer) :
    roles .code (entries ++ trailer) =
      rolesBefore trailer.head? .code entries ++ roles .code trailer := by
  rw [Script.roles_append, hcut.code]

/-- The last counted character is the one before the cut. -/
theorem lastCounted_eq (hcut : Cut entries trailer) (index : Nat) :
    lastCounted index none (roles .code (entries ++ trailer)) =
      entries.getLast?.map fun c => (index + entries.length - 1, c) := by
  rw [hcut.roles_append, lastCounted_append, lastCounted_of_not_isCounted _ _ hcut.uncounted]
  rcases hcut.ends with rfl | ⟨e, c, rfl, hc⟩
  · rfl
  · have hlast : index + e.length = index + (e ++ [c]).length - 1 := by
      rw [List.length_append, List.length_singleton]
      omega
    rw [(read_concat ..).1, lastCounted_append, List.getLast?_concat, length_rolesBefore]
    simp only [lastCounted, hc, if_true, Option.map_some, hlast]

/-- Before a cut the reader looks ahead only for the second half of a comment mark. -/
theorem read_entries (hcut : Cut entries trailer) {next : Option Char} (hslash : next ≠ some '/')
    (hstar : next ≠ some '*') :
    rolesBefore next .code entries = rolesBefore trailer.head? .code entries ∧
      modeAfter next .code entries = .code := by
  rcases hcut.ends with rfl | ⟨e, c, rfl, hc⟩
  · exact ⟨rfl, rfl⟩
  · obtain ⟨hstep, hcode⟩ := step_of_isCounted hc hslash hstar
    rw [(read_concat ..).1, (read_concat ..).1, (read_concat ..).2, hstep]
    exact ⟨rfl, hcode⟩

/-- What stands before the cut is read in the same way alone. -/
theorem read_alone (hcut : Cut entries trailer) :
    rolesBefore none .code entries = rolesBefore trailer.head? .code entries ∧
      modeAfter none .code entries = .code :=
  hcut.read_entries nofun nofun

/-- Both sides of the cut are closed, and are read apart from each other. -/
theorem isClosed (hcut : Cut entries trailer) (h : IsClosed (entries ++ trailer)) :
    IsClosed entries ∧ IsClosed trailer ∧
      roles .code (entries ++ trailer) = roles .code entries ++ roles .code trailer := by
  obtain ⟨hread, hcode⟩ := hcut.read_alone
  have hroles := hcut.roles_append
  have htrailer := h.code
  have hdepth := h.depth
  rw [modeAfter_append, Option.or_none, hcut.code] at htrailer
  rw [← hread, ← roles_eq_rolesBefore] at hroles
  rw [hroles, depthAfter_append] at hdepth
  obtain ⟨d, hentries, hd⟩ := Option.bind_eq_some_iff.mp hdepth
  rw [depthAfter_of_not_isCounted hcut.uncounted, Option.some.injEq] at hd
  subst hd
  exact ⟨⟨hcode, hentries⟩, ⟨htrailer, depthAfter_of_not_isCounted hcut.uncounted 0⟩, hroles⟩

/-- The content of a literal stands before the cut. -/
theorem significant_eq (hcut : Cut entries trailer) (h : IsClosed (entries ++ trailer)) :
    significant (roles .code (entries ++ trailer)) = significant (roles .code entries) := by
  obtain ⟨-, htrailer, hroles⟩ := hcut.isClosed h
  rw [hroles, significant_append, htrailer.significant_eq_nil hcut.uncounted, List.append_nil]

/-- The content ends with the character before the cut. -/
theorem getLast?_content (hcut : Cut entries trailer) :
    (significant (roles .code entries)).getLast? = entries.getLast? := by
  rw [roles_eq_rolesBefore, hcut.read_alone.1]
  rcases hcut.ends with rfl | ⟨e, c, rfl, hc⟩
  · rfl
  · rw [(read_concat ..).1, getLast?_significant hc, List.getLast?_concat]

end Cut

/-- Whatever stands inside a literal can be cut. -/
theorem exists_cut (inside : List Char) :
    ∃ entries trailer, inside = entries ++ trailer ∧ Cut entries trailer := by
  obtain ⟨xs, ys, hsplit, hys, hxs⟩ := lastCounted_cases 0 none (roles .code inside)
  have hinside : inside = xs.map Prod.fst ++ ys.map Prod.fst := by
    rw [← map_fst_roles .code inside, hsplit, List.map_append]
  rw [hinside] at hsplit
  rw [Script.roles_append] at hsplit
  obtain ⟨hentries, htrailer⟩ := List.append_inj hsplit
    (by rw [length_rolesBefore, List.length_map])
  rcases hxs with ⟨rfl, -⟩ | ⟨xs, r, rfl, hr, -⟩
  · rw [List.map_nil, List.nil_append] at hinside
    rw [List.map_nil, modeAfter_nil, ← hinside] at htrailer
    refine ⟨[], inside, rfl, rfl, ?_, .inl rfl⟩
    rw [htrailer]
    exact hys
  · obtain ⟨hentries, hends⟩ : rolesBefore (some r.1) .code (xs.map Prod.fst) = xs ∧
        ((modeAfter (some r.1) .code (xs.map Prod.fst)).step r.1 (ys.map Prod.fst).head?).1 =
          r.2 := by
      rw [List.map_append, List.map_singleton, (read_concat ..).1] at hentries
      obtain ⟨hxs, hlast⟩ := List.append_inj hentries
        (by rw [length_rolesBefore, List.length_map])
      exact ⟨hxs, congrArg Prod.snd (List.cons.inj hlast).1⟩
    have hcounted : isCounted (r.1, ((modeAfter (some r.1) .code (xs.map Prod.fst)).step r.1
        (ys.map Prod.fst).head?).1) = true := by
      rw [hends]
      exact hr
    have hcode : modeAfter (ys.map Prod.fst).head? .code ((xs ++ [r]).map Prod.fst) = .code := by
      rw [List.map_append, List.map_singleton, (read_concat ..).2]
      exact (step_of_isCounted hcounted (show none ≠ some '/' from nofun) nofun).2
    refine ⟨_, _, hinside, hcode, ?_, .inr ⟨_, _, by rw [List.map_append]; rfl, hcounted⟩⟩
    rw [← hcode, htrailer]
    exact hys

/-- A character of code that is no bracket is closed in itself. -/
theorem isClosed_singleton {c : Char} (hplain : isPlain c = true) (hclose : isClosing c = false)
    (hopen : isOpening c = false) : IsClosed [c] ∧ roles .code [c] = [(c, .code)] := by
  obtain ⟨hroles, hcode⟩ := read_plain (show ∀ d ∈ [c], isPlain d = true by simpa using hplain) none
  rw [← roles_eq_rolesBefore, List.map_singleton] at hroles
  refine ⟨⟨hcode, ?_⟩, hroles⟩
  rw [hroles]
  simp [depthAfter, depthStep, hclose, hopen]

/-- What is put in for an entry of a literal. -/
theorem entryBlock_eq {anchor : Anchor} (hanchor : anchor.Named) (needs : Bool)
    (fragment : List Char) :
    entryBlock anchor needs fragment = (if needs then [','] else []) ++ (['\n'] ++ fragment) := by
  have hne : anchor ≠ .fileEnd := by
    rintro rfl
    exact hanchor
  rw [entryBlock, if_neg hne]
  rfl

/-- An entry with what is put in front of it is closed, and it is read as it is read alone. -/
theorem SelfContained.isClosed_entryBlock {fragment : List Char} (hf : SelfContained fragment)
    {anchor : Anchor} (hanchor : anchor.Named) (needs : Bool) :
    IsClosed (entryBlock anchor needs fragment) ∧
      roles .code (entryBlock anchor needs fragment) =
        (if needs then [(',', .code)] else []) ++ ('\n', .code) :: roles .code fragment := by
  obtain ⟨hnl, hnlroles⟩ := isClosed_singleton (c := '\n') (by decide) (by decide) (by decide)
  obtain ⟨hlineroles, hline⟩ := hnl.append hf.closed (hnl.read (by decide) _)
  rw [hnlroles] at hlineroles
  rw [entryBlock_eq hanchor]
  cases needs with
  | false => exact ⟨hline, hlineroles⟩
  | true =>
    obtain ⟨hcomma, hcommaroles⟩ :=
      isClosed_singleton (c := ',') (by decide) (by decide) (by decide)
    obtain ⟨hroles, hblock⟩ := hcomma.append hline (hcomma.read (by decide) _)
    refine ⟨hblock, ?_⟩
    rw [if_pos rfl, if_pos rfl, hroles, hcommaroles, hlineroles]
    rfl

/-- No comment mark forms at either end of what is put in for an entry. -/
theorem SelfContained.entryBlock_ends {fragment : List Char} (hf : SelfContained fragment)
    {anchor : Anchor} (hanchor : anchor.Named) (needs : Bool) (rest : List Char) :
    (entryBlock anchor needs fragment).getLast? ≠ some '/' ∧
      (entryBlock anchor needs fragment ++ rest).head? ≠ some '/' ∧
        (entryBlock anchor needs fragment ++ rest).head? ≠ some '*' := by
  rw [entryBlock_eq hanchor]
  refine ⟨?_, ?_⟩
  · obtain ⟨c, hc⟩ : ∃ c, fragment.getLast? = some c := by
      rw [← Option.isSome_iff_exists, List.getLast?_isSome]
      rintro rfl
      exact hf.content rfl
    have hslash := hf.slash
    rw [← List.append_assoc, List.getLast?_append, hc, Option.some_or]
    rwa [hc] at hslash
  · cases needs <;> exact ⟨by simp, by simp⟩

/-- A literal stays closed when an entry is put in at its cut, and the entry is read there as it is read
alone. -/
theorem Cut.roles_addEntry {entries trailer fragment : List Char} (hcut : Cut entries trailer)
    (h : IsClosed (entries ++ trailer)) (hf : SelfContained fragment) {anchor : Anchor}
    (hanchor : anchor.Named) :
    let needs := entries.getLast?.any (· != ',')
    let inside := entries ++ (entryBlock anchor needs fragment ++ trailer)
    IsClosed inside ∧ roles .code inside =
      roles .code entries ++ ((if needs then [(',', .code)] else []) ++
        ('\n', .code) :: roles .code fragment ++ roles .code trailer) := by
  intro needs inside
  obtain ⟨hblock, hread⟩ := hf.isClosed_entryBlock hanchor needs
  obtain ⟨hslash, hhead⟩ := hf.entryBlock_ends hanchor needs trailer
  obtain ⟨hentries, htrailer, -⟩ := hcut.isClosed h
  obtain ⟨hrolesrest, hrest⟩ := hblock.append htrailer (hblock.read hslash _)
  obtain ⟨hroles, hall⟩ := hentries.append hrest <| by
    rw [roles_eq_rolesBefore, hcut.read_alone.1]
    exact hcut.read_entries hhead.1 hhead.2
  exact ⟨hall, by rw [hroles, hrolesrest, hread]⟩

/-- Its content is then that of the old literal with one more entry. -/
theorem Cut.significant_addEntry {entries trailer fragment : List Char} (hcut : Cut entries trailer)
    (h : IsClosed (entries ++ trailer)) (hf : SelfContained fragment) {anchor : Anchor}
    (hanchor : anchor.Named) :
    significant (roles .code (entries ++
        (entryBlock anchor (entries.getLast?.any (· != ',')) fragment ++ trailer))) =
      addEntry (significant (roles .code (entries ++ trailer))) fragment := by
  have hcomma : significant (if entries.getLast?.any (· != ',') then [(',', .code)] else []) =
      if entries.getLast?.any (· != ',') then [','] else [] := by
    split_ifs <;> rfl
  have hline : significant (('\n', .code) :: roles .code fragment) =
      significant (roles .code fragment) := rfl
  obtain ⟨-, htrailer, -⟩ := hcut.isClosed h
  rw [(hcut.roles_addEntry h hf hanchor).2, significant_append, significant_append,
    significant_append, hcomma, hline, htrailer.significant_eq_nil hcut.uncounted, List.append_nil,
    hcut.significant_eq h, addEntry_eq, hcut.getLast?_content]

/-- What stands in a literal before and after an entry is put in at its cut. -/
def Enters (anchor : Anchor) (fragment inside inside' : List Char) : Prop :=
  ∃ entries trailer, inside = entries ++ trailer ∧ Cut entries trailer ∧
    inside' = entries ++ (entryBlock anchor (entries.getLast?.any (· != ',')) fragment ++ trailer)

/-- The content of a literal into which an entry is put grows by the entry. -/
theorem Enters.significant_eq {anchor : Anchor} {fragment inside inside' : List Char}
    (h : Enters anchor fragment inside inside') (hclosed : IsClosed inside)
    (hf : SelfContained fragment) (hanchor : anchor.Named) :
    significant (roles .code inside') = addEntry (significant (roles .code inside)) fragment := by
  obtain ⟨entries, trailer, rfl, hcut, rfl⟩ := h
  exact hcut.significant_addEntry hclosed hf hanchor

section Run

variable {mark : Char} {parts : List Part} {anchor : Anchor}

/-- The place for a new entry is the cut of the literal. -/
theorem locate_eq (hparts : anchor.parts = some parts) (hd : IsDeclaration mark parts)
    {cs : List Char} {l : Literal} (hl : anchor.literal cs = some l) {entries trailer : List Char}
    (hinside : l.inside = entries ++ trailer) (hcut : Cut entries trailer) :
    anchor.locate cs =
      some ⟨l.before.length + entries.length, entries.getLast?.any (· != ',')⟩ := by
  obtain ⟨hscript, hfind, hclosed, c, t, hafter, hc⟩ := (literal_eq_some_iff hparts hd).mp hl
  have hdrop : cs.drop l.before.length = l.inside ++ c :: t := by
    rw [hscript, Literal.script, List.drop_left, hafter]
  have hclose : closeIndex 0 (roles .code (l.inside ++ c :: t)) = some l.inside.length :=
    closeIndex_roles_eq_some_iff.mpr ⟨l.inside, c, t, rfl, rfl, hclosed, hc⟩
  have htake : (roles .code (l.inside ++ c :: t)).take l.inside.length = roles .code l.inside := by
    rw [roles_append_of_isClosing hc, List.take_left' (length_roles ..)]
  have hlast : lastSignificant l.before.length 1 none (roles .code (l.inside ++ c :: t)) =
      some (entries.getLast?.map fun c => (l.before.length + entries.length - 1, c)) := by
    rw [lastSignificant_eq, hclose, Option.map_some, htake, hinside, hcut.lastCounted_eq]
  simp only [Anchor.locate, hparts, Option.bind_eq_bind, hfind, Option.bind_some, hdrop, hlast]
  rcases List.eq_nil_or_concat' entries with rfl | ⟨e, d, rfl⟩
  · rfl
  · simp only [List.getLast?_concat, Option.map_some, Option.any_some, List.length_append,
      List.length_singleton]
    congr 2

/-- There is a place for an entry only in a literal. -/
theorem exists_literal (hparts : anchor.parts = some parts) {cs : List Char}
    (hlocate : anchor.locate cs ≠ none) : ∃ l, anchor.literal cs = some l := by
  rw [← Option.isSome_iff_exists, Anchor.literal, hparts]
  simp only [Anchor.locate, hparts, Option.bind_eq_bind, Option.bind_some] at hlocate ⊢
  cases hfind : findDeclaration cs parts with
  | none =>
    rw [hfind] at hlocate
    exact absurd rfl hlocate
  | some d =>
    rw [hfind, Option.bind_some, lastSignificant_eq] at hlocate
    cases hclose : closeIndex 0 (roles .code (cs.drop d.stop)) with
    | none =>
      rw [hclose] at hlocate
      exact absurd rfl hlocate
    | some n =>
      simp only [Option.bind_some, hclose]
      rfl

/-- A patch puts the entry into the literal, which stays where it is. -/
theorem applyPatch_enters (hparts : anchor.parts = some parts) (hd : IsDeclaration mark parts)
    (hanchor : anchor.Named) {cs : List Char} {l : Literal} (hl : anchor.literal cs = some l)
    {fragment : List Char} (hf : SelfContained fragment) :
    ∃ inside, applyPatch cs anchor fragment none = some { l with inside := inside }.script ∧
      anchor.literal { l with inside := inside }.script = some { l with inside := inside } ∧
      Enters anchor fragment l.inside inside := by
  obtain ⟨hscript, -, hclosed, -⟩ := (literal_eq_some_iff hparts hd).mp hl
  obtain ⟨entries, trailer, hinside, hcut⟩ := exists_cut l.inside
  have hlocate := locate_eq hparts hd hl hinside hcut
  rw [hinside] at hclosed
  have hnew := (hcut.roles_addEntry hclosed hf hanchor).1
  refine ⟨_, ?_, literal_with_inside hparts hd hl hnew, entries, trailer, hinside, hcut, rfl⟩
  have hcs : cs = l.before ++ entries ++ (trailer ++ l.after) := by
    rw [hscript, Literal.script, hinside]
    simp only [List.append_assoc]
  simp only [applyPatch, hlocate, Option.map_some, insertAt, ← List.length_append, Literal.script]
  rw [hcs, List.take_left, List.drop_left]
  simp only [List.append_assoc]

/-- Entry by entry the content of the literal grows. -/
theorem addEntries_eq (hparts : anchor.parts = some parts) (hd : IsDeclaration mark parts)
    (hanchor : anchor.Named) {cs : List Char} {l : Literal} (hl : anchor.literal cs = some l)
    {fragments : List (List Char)} (hfragments : ∀ f ∈ fragments, SelfContained f) :
    ∃ inside, addEntries anchor cs fragments = some { l with inside := inside }.script ∧
      anchor.literal { l with inside := inside }.script = some { l with inside := inside } ∧
      significant (roles .code inside) = fragments.foldl addEntry l.content := by
  induction fragments generalizing cs l with
  | nil =>
    obtain ⟨rfl, -⟩ := (literal_eq_some_iff hparts hd).mp hl
    exact ⟨l.inside, rfl, hl, rfl⟩
  | cons f fragments ih =>
    have hf := hfragments f List.mem_cons_self
    obtain ⟨-, -, hclosed, -⟩ := (literal_eq_some_iff hparts hd).mp hl
    obtain ⟨inside, hpatch, hl', henters⟩ := applyPatch_enters hparts hd hanchor hl hf
    obtain ⟨inside', hrun, hl'', hcontent'⟩ :=
      ih hl' fun g hg => hfragments g (List.mem_cons_of_mem _ hg)
    refine ⟨inside', ?_, hl'', ?_⟩
    · rw [addEntries, List.foldlM_cons, hpatch]
      exact hrun
    · rw [hcontent', Literal.content, henters.significant_eq hclosed hf hanchor, List.foldl_cons]
      rfl

end Run

/-- Entries can be added to a literal in any number and order, whatever stands in it: the literal
keeps its place, what is before and behind it stays, and its content grows by the entries in turn,
divided by commas. -/
theorem exists_addEntries {anchor : Anchor} (hanchor : anchor.Named) {cs : List Char}
    (hlocate : anchor.locate cs ≠ none) {fragments : List (List Char)}
    (hfragments : ∀ f ∈ fragments, SelfContained f) :
    ∃ l l', anchor.literal cs = some l ∧ cs = l.script ∧
      addEntries anchor cs fragments = some l'.script ∧ anchor.literal l'.script = some l' ∧
      anchor.declarationStart cs = some l.start ∧
      anchor.declarationStart l'.script = some l.start ∧
      l'.before = l.before ∧ l'.after = l.after ∧
      l'.content = fragments.foldl addEntry l.content := by
  obtain ⟨mark, parts, hparts, hd⟩ := hanchor.exists_parts
  obtain ⟨l, hl⟩ := exists_literal hparts hlocate
  obtain ⟨inside, hrun, hl', hcontent⟩ := addEntries_eq hparts hd hanchor hl hfragments
  obtain ⟨hscript, -⟩ := (literal_eq_some_iff hparts hd).mp hl
  have hstart := declarationStart_eq hparts hd hl
  have hstart' := declarationStart_eq hparts hd hl'
  exact ⟨l, { l with inside := inside }, hl, hscript, hrun, hl', hstart, hstart', rfl, rfl, hcontent⟩

/-- The last entry is a string with a bracket in it and stands in front of two comments; the first
new entry ends with a comment and the second with a comma. -/
theorem exists_addEntries_before_comments :
    (Anchor.arrayLiteral "xs").Named ∧
      (Anchor.arrayLiteral "xs").locate
        "/* export const xs = [ */ export const xs = [\n 'a]' // ]\n /* b */\n];\n".toList ≠ none ∧
      (∀ f ∈ [" f([ ')' ]) // c,\n".toList, " d,".toList, "e".toList], SelfContained f) ∧
      ∃ l', addEntries (.arrayLiteral "xs")
          "/* export const xs = [ */ export const xs = [\n 'a]' // ]\n /* b */\n];\n".toList
          [" f([ ')' ]) // c,\n".toList, " d,".toList, "e".toList] = some l'.script ∧
        (Anchor.arrayLiteral "xs").literal l'.script = some l' ∧
        l'.content = "'a]',f([')']),d,e".toList := by
  have hnamed : (Anchor.arrayLiteral "xs").Named := isDeclarationCharacter_of_mem (by decide)
  have hlocate : (Anchor.arrayLiteral "xs").locate
      "/* export const xs = [ */ export const xs = [\n 'a]' // ]\n /* b */\n];\n".toList ≠ none := by
    decide +kernel
  have hfragments : ∀ f ∈ [" f([ ')' ]) // c,\n".toList, " d,".toList, "e".toList],
      SelfContained f := by
    simp only [List.forall_mem_cons, List.not_mem_nil, false_implies, implies_true, and_true]
    refine ⟨⟨⟨?_, ?_⟩, ?_, ?_⟩, ⟨⟨?_, ?_⟩, ?_, ?_⟩, ⟨⟨?_, ?_⟩, ?_, ?_⟩⟩ <;> decide +kernel
  obtain ⟨l, l', hl, -, hrun, hl', -, -, -, -, hcontent⟩ :=
    exists_addEntries hnamed hlocate hfragments
  have hold : ((Anchor.arrayLiteral "xs").literal
      "/* export const xs = [ */ export const xs = [\n 'a]' // ]\n /* b */\n];\n".toList).map
        Literal.content = some "'a]'".toList := by
    decide +kernel
  rw [hl, Option.map_some, Option.some.injEq] at hold
  rw [hold] at hcontent
  refine ⟨hnamed, hlocate, hfragments, l', hrun, hl', ?_⟩
  rw [hcontent]
  decide +kernel

end AppScaffold.Script
