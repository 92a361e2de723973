import AppScaffold.Proofs.Script.Entries
import AppScaffold.Proofs.Script.ImportBlock
import AppScaffold.Proofs.Script.ImportLine
import AppScaffold.Proofs.Script.Insertion
import Mathlib.Data.List.Basic
import Mathlib.Tactic.Common

/-!
# Adding an entry with its import

A patch puts an import line behind what looks like the last import in front of the declaration. That
line takes effect exactly if its place lies in code and not behind the declaration: it may come to
stand in a comment or in the literal itself when an import in a comment is taken for a real one, or
when text follows the module of an import on its line.
-/

namespace AppScaffold.Script

/-- Where the import line of a patch stands in the patched script. -/
def importIndex (cs : List Char) (anchor : Anchor) (fragment line : List Char) : Option Nat :=
  (anchor.locate cs).map fun point =>
    let entry := entryBlock anchor point.needsSeparator fragment
    let (q, block) := importBlock cs ((anchor.declarationStart cs).getD cs.length) line
    (if q ≤ point.index then q else q + entry.length) + (if block.head? = some '\n' then 1 else 0)

/-- An import line at a place of a script takes effect for the declaration of the anchor. -/
structure TakesEffect (anchor : Anchor) (cs line : List Char) (index : Nat) : Prop where
  /-- The line begins at the start of a line. -/
  first : index = 0 ∨ cs[index - 1]? = some '\n'
  /-- It begins outside the comments and strings of the script. -/
  begins : isCodeIndex cs index = true
  /-- It is read in the script as it is read alone. -/
  read : ((roles .code cs).drop index).take line.length = roles .code line
  /-- It ends outside comments and strings. -/
  ends : isCodeIndex cs (index + line.length) = true
  /-- It ends before the declaration. -/
  before : ∃ start, anchor.declarationStart cs = some start ∧ index + line.length ≤ start

/-- What is put in for an import is its line between line ends. -/
theorem exists_importBlock_eq (cs line : List Char) (limit : Nat) :
    ∃ lead trail, importBlock cs limit line = (importPlace cs limit, lead ++ (line ++ trail)) ∧
      (lead = [] ∨ lead = ['\n']) := by
  rw [importBlock, importPlace]
  cases importBlockEnd cs limit with
  | none => exact ⟨[], ['\n', '\n'], rfl, .inl rfl⟩
  | some stop =>
    simp only [Option.getD_some]
    by_cases hnl : (cs.take stop).getLast? = some '\n'
    · rw [if_pos hnl]
      exact ⟨[], ['\n'], rfl, .inl rfl⟩
    · rw [if_neg hnl]
      exact ⟨['\n'], [], by rw [List.append_nil]; rfl, .inr rfl⟩

/-- The place for an import line lies in the script. -/
theorem importPlace_le (cs : List Char) (limit : Nat) : importPlace cs limit ≤ cs.length := by
  rcases importPlace_cases cs limit with ⟨-, hplace⟩ | ⟨x, mark, t, r, hcs, -, -, -, hplace⟩
  · omega
  · rw [hplace, hcs]
    simp only [List.length_append, List.length_cons]
    omega

section Patch

variable {mark : Char} {parts : List Part} {anchor : Anchor}

/-- A place with a quote and the rest of its line in front does not lie in a declaration. -/
theorem place_le_or_le (hd : IsDeclaration mark parts) {x t r : List Char} {quote : Char}
    (hquote : isQuote quote = true) (ht : 'e' ∉ t) {d : Span}
    (hfind : findDeclaration (x ++ quote :: (t ++ r)) parts = some d) :
    (x ++ quote :: t).length ≤ d.start ∨ d.stop ≤ (x ++ quote :: t).length := by
  obtain ⟨a, m, s, hsplit, hm, rfl, -⟩ := hd.split hfind
  have hsigns := (hd.signs hm).1 quote hquote
  have hstart := hd.starts m hm
  simp only [List.length_append, List.length_cons]
  rcases List.append_eq_append_iff.mp hsplit with ⟨b, rfl, hb⟩ | ⟨b, rfl, hb⟩
  · cases b with
    | nil =>
      have hhead := congrArg List.head? hb
      rw [List.nil_append, List.head?_append, hstart, Option.some_or, List.head?_cons,
        Option.some.injEq] at hhead
      subst hhead
      cases hquote
    | cons c b =>
      obtain ⟨-, hb⟩ := List.cons.inj hb
      rcases List.append_eq_append_iff.mp hb with ⟨b', rfl, -⟩ | ⟨b', rfl, hb'⟩
      · refine .inl ?_
        simp only [List.length_append, List.length_cons]
        omega
      · cases b' with
        | nil =>
          refine .inl ?_
          simp only [List.length_append, List.length_cons, List.length_nil]
          omega
        | cons c' b' =>
          have hhead := congrArg List.head? hb'
          rw [List.head?_append, hstart] at hhead
          simp at hhead ht
          grind
  · have hlen := (prefix_of_notMem hsigns hb.symm).length_le
    refine .inr ?_
    simp only [List.length_append]
    omega

/-- In front of the place for an import line nothing begins that goes over it, and behind a line end
the reader looks ahead for nothing. -/
theorem importPlace_front (hd : IsDeclaration mark parts) {cs : List Char} {limit : Nat}
    (hlt : importPlace cs limit < cs.length) :
    Sealed parts (cs.take (importPlace cs limit)) ∧
      (importPlace cs limit = 0 ∨ (cs.take (importPlace cs limit)).getLast? = some '\n') ∧
      ∀ line, ∃ trail, importBlock cs limit line = (importPlace cs limit, line ++ '\n' :: trail) ∧
        ∀ c ∈ trail, c = '\n' := by
  rcases importPlace_cases cs limit with ⟨hend, hplace⟩ | ⟨x, quote, t, r, hcs, hquote, ht, hend, hplace⟩
  · rw [hplace]
    refine ⟨sealed_nil parts, .inl rfl, fun line => ⟨['\n'], ?_, by simp⟩⟩
    rw [importBlock, hend]
  · have htake : cs.take (importPlace cs limit) = x ++ quote :: t := by
      rw [hplace, hcs, ← List.cons_append, ← List.append_assoc, List.take_left]
    have hlast : (x ++ quote :: t).getLast? = some '\n' := by
      rcases ht.last with rfl | hlast
      · rw [hplace, hcs, List.append_nil] at hlt
        omega
      · rw [List.getLast?_append, List.getLast?_cons, hlast]
        rfl
    have hletter : 'e' ∉ t := fun he => absurd (ht.all 'e' he) (by decide)
    have hne : quote ≠ mark := by
      rintro rfl
      rcases hd.opens with rfl | rfl <;> cases hquote
    have hforeign : isDeclarationCharacter quote = false := by
      rw [isDeclarationCharacter, isPlain, hquote]
      rfl
    refine ⟨?_, .inr (htake ▸ hlast), fun line => ⟨[], ?_, by simp⟩⟩
    · rw [htake, List.append_cons]
      exact (hd.sealed_concat hforeign hne x).append (hd.sealed_of_notMem hletter)
    · rw [← htake] at hlast
      rw [importBlock, hend]
      simp only [hlast, if_true]

/-- Behind a line end, and at the top, a place is in code exactly when what stands in front of it is
settled. -/
theorem settled_iff_isCodeIndex {p r : List Char} (hp : p = [] ∨ p.getLast? = some '\n')
    (hr : r ≠ []) : isCodeIndex (p ++ r) p.length = true ↔ Settled p := by
  obtain ⟨c, r, rfl⟩ := List.exists_cons_of_ne_nil hr
  have hslash : p.getLast? ≠ some '/' := by
    rcases hp with rfl | hp
    · intro h
      cases h
    · rw [hp]
      decide
  have hline : modeAfter (some c) .code p ≠ .line := by
    rcases hp with rfl | hp
    · intro h
      cases h
    · obtain ⟨p, rfl⟩ := List.getLast?_eq_some_iff.mp hp
      rw [(read_concat ..).2]
      cases modeAfter (some '\n') .code p with
      | quote mark =>
        intro h
        rw [Mode.step] at h
        split_ifs at h
      | _ =>
        intro h
        cases h
  rw [isCodeIndex_append]
  constructor
  · rintro (hcode | ⟨hcode, -⟩)
    · exact settled_of_modeAfter hcode hslash
    · exact absurd hcode hline
  · exact fun h => .inl (h _).2

variable (anchor) in
/-- An import line at the start of a line takes effect exactly when it begins in code and leaves no
string open, provided that the declaration is then found behind it. -/
theorem takesEffect_iff {p line : List Char} (z : List Char) (hp : p = [] ∨ p.getLast? = some '\n')
    (hline : IsImportLine line)
    (hstart : Settled p → modeAfter none .code line = .code →
      ∃ start, anchor.declarationStart (p ++ (line ++ '\n' :: z)) = some start ∧
        p.length + line.length ≤ start) :
    TakesEffect anchor (p ++ (line ++ '\n' :: z)) line p.length ↔
      Settled p ∧ modeAfter none .code line = .code := by
  have hne : line ++ '\n' :: z ≠ [] := by simp
  have hends : Settled p →
      (isCodeIndex (p ++ (line ++ '\n' :: z)) (p.length + line.length) = true ↔
        modeAfter none .code line = .code) := by
    intro hsettled
    rw [Nat.add_comm, hsettled.isCodeIndex_append_right, isCodeIndex_append,
      (read_unmarked (by decide) (by decide) .code line).2]
    exact or_iff_left fun h => hline.modeAfter_ne_line none h.1
  constructor
  · intro h
    have hsettled := (settled_iff_isCodeIndex hp hne).mp h.begins
    exact ⟨hsettled, (hends hsettled).mp h.ends⟩
  · rintro ⟨hsettled, hcode⟩
    refine ⟨?_, (settled_iff_isCodeIndex hp hne).mpr hsettled, ?_, (hends hsettled).mpr hcode,
      hstart hsettled hcode⟩
    · rcases hp with rfl | hp
      · exact .inl rfl
      · refine .inr ?_
        rw [List.getElem?_append_left, ← List.getLast?_eq_getElem?, hp]
        obtain ⟨p, rfl⟩ := List.getLast?_eq_some_iff.mp hp
        simp
    · rw [hsettled.roles_append, List.drop_left' (length_roles ..),
        (hline.settled hcode).roles_append, List.take_left' (length_roles ..)]

/-- A patch with an import puts both in. -/
theorem applyPatch_import {cs : List Char} {point : InsertionPoint} {start : Nat}
    (hlocate : anchor.locate cs = some point) (hstart : anchor.declarationStart cs = some start)
    (fragment line : List Char) :
    applyPatch cs anchor fragment (some line) =
      some (insertBoth cs point.index (entryBlock anchor point.needsSeparator fragment)
        (importBlock cs start line).1 (importBlock cs start line).2) := by
  simp only [applyPatch, hlocate, hstart, Option.map_some, Option.getD_some]

/-- The import line of a patch stands behind the line end that is put in front of it, if any. -/
theorem importIndex_eq {cs line lead trail : List Char} {point : InsertionPoint} {start : Nat}
    (hlocate : anchor.locate cs = some point) (hstart : anchor.declarationStart cs = some start)
    (hline : IsImportLine line)
    (hblock : importBlock cs start line = (importPlace cs start, lead ++ (line ++ trail)))
    (hlead : lead = [] ∨ lead = ['\n']) (fragment : List Char) :
    importIndex cs anchor fragment line =
      some ((if importPlace cs start ≤ point.index then importPlace cs start
        else importPlace cs start +
          (entryBlock anchor point.needsSeparator fragment).length) + lead.length) := by
  have hhead : (if (lead ++ (line ++ trail)).head? = some '\n' then 1 else 0) = lead.length := by
    rcases hlead with rfl | rfl
    · rw [List.nil_append, List.head?_append, hline.ends.1]
      rfl
    · rfl
  simp only [importIndex, hlocate, hstart, Option.map_some, Option.getD_some, hblock, hhead]

/-- An import line with line ends behind it, put in before the declaration of a literal, moves the
literal and changes nothing else, if it is put in between code and leaves no string open. -/
theorem literal_insert_import (hparts : anchor.parts = some parts) (hd : IsDeclaration mark parts)
    {p line trail r : List Char} (hsealed : Sealed parts p) (hsettled : Settled p)
    (hline : IsImportLine line) (hcode : modeAfter none .code line = .code)
    (htrail : ∀ c ∈ trail, c = '\n') {l : Literal} (hl : anchor.literal (p ++ r) = some l)
    (hstart : p.length ≤ l.start) :
    ∃ before, anchor.literal (p ++ (line ++ trail ++ r)) =
      some ⟨l.start + (line ++ trail).length, before, l.inside, l.after⟩ := by
  have hplain : ∀ c ∈ trail, isPlain c = true := fun c hc => htrail c hc ▸ rfl
  have hletter : 'e' ∉ trail := fun he => absurd (htrail 'e' he) (by decide)
  have hread : Settled trail := by
    refine settled_of_modeAfter (read_plain hplain none).2 fun hlast => ?_
    exact absurd (htrail '/' (List.mem_of_getLast? hlast)) (by decide)
  exact ⟨_, literal_insert hparts hd hsealed hsettled (hline.quoted.sealed_append hd hletter)
    ((hline.settled hcode).append hread) (hline.findDeclaration_eq_none hd hletter) hl hstart⟩

/-- Where the place for the import comes before the declaration, the script there stays in two parts,
and the import line comes between them. -/
theorem applyPatch_import_front (hparts : anchor.parts = some parts) (hd : IsDeclaration mark parts)
    (hanchor : anchor.Named) {cs : List Char} {l : Literal} (hl : anchor.literal cs = some l)
    {fragment : List Char} (hf : SelfContained fragment) (line : List Char) {q : Nat}
    (hq : importPlace cs l.start = q) (hle : q ≤ l.start) :
    ∃ trail r inside, (∀ c ∈ trail, c = '\n') ∧
      applyPatch cs anchor fragment (some line) =
        some (cs.take q ++ (line ++ '\n' :: trail ++ r)) ∧
      anchor.literal (cs.take q ++ r) = some { l with inside := inside } ∧
      Enters anchor fragment l.inside inside := by
  obtain ⟨hscript, -⟩ := (literal_eq_some_iff hparts hd).mp hl
  obtain ⟨entries, trailer, hinside, hcut⟩ := exists_cut l.inside
  obtain ⟨inside, hentry, hl', henters⟩ := applyPatch_enters hparts hd hanchor hl hf
  have hlocate := locate_eq hparts hd hl hinside hcut
  have hbefore := start_lt_before hparts hd hl
  have hlength := congrArg List.length hscript
  simp only [Literal.script, hinside, List.length_append] at hlength
  obtain ⟨-, -, himport⟩ := importPlace_front hd (show importPlace cs l.start < cs.length by omega)
  obtain ⟨trail, hblock, htrail⟩ := himport line
  have hpatch := applyPatch_import hlocate (declarationStart_eq hparts hd hl) fragment line
  have hqpoint : q ≤ l.before.length + entries.length := by omega
  have htake := take_insertAt hqpoint (show l.before.length + entries.length ≤ cs.length by omega)
    (entryBlock anchor (entries.getLast?.any (· != ',')) fragment)
  simp only [applyPatch, hlocate, Option.map_some, Option.some.injEq] at hentry
  rw [hblock, hq, insertBoth, if_pos hqpoint, insertAt, htake, hentry, List.append_assoc] at hpatch
  rw [hentry] at htake
  refine ⟨trail, _, inside, htrail, hpatch, ?_, henters⟩
  rw [← htake, List.take_append_drop]
  exact hl'

/-- A place for an import line in front of the declaration is in code exactly when what stands before it
is settled. -/
theorem isCodeIndex_importPlace_iff (hparts : anchor.parts = some parts) (hd : IsDeclaration mark parts)
    {cs : List Char} {l : Literal} (hl : anchor.literal cs = some l) {q : Nat}
    (hq : importPlace cs l.start = q) (hle : q ≤ l.start) :
    q < cs.length ∧ (cs.take q = [] ∨ (cs.take q).getLast? = some '\n') ∧
      (isCodeIndex cs q = true ↔ Settled (cs.take q)) := by
  obtain ⟨hscript, -⟩ := (literal_eq_some_iff hparts hd).mp hl
  have hbefore := start_lt_before hparts hd hl
  have hlt : q < cs.length := by
    rw [hscript, Literal.script, List.length_append]
    omega
  obtain ⟨-, hfront, -⟩ := importPlace_front hd (hq ▸ hlt)
  rw [hq] at hfront
  have hplace : cs.take q = [] ∨ (cs.take q).getLast? = some '\n' :=
    hfront.imp_left fun hzero => by rw [hzero, List.take_zero]
  have hrest : cs.drop q ≠ [] := by
    rw [ne_eq, List.drop_eq_nil_iff]
    omega
  have hcode := settled_iff_isCodeIndex hplace hrest
  rw [List.take_append_drop, List.length_take_of_le (by omega)] at hcode
  exact ⟨hlt, hplace, hcode⟩

/-- An import line between code in front of the declaration moves the literal, which gets the entry and
nothing else. -/
theorem literal_of_import_front (hparts : anchor.parts = some parts) (hd : IsDeclaration mark parts)
    {cs line trail r inside : List Char} {l : Literal} (hl : anchor.literal cs = some l)
    (hline : IsImportLine line) (hcode : modeAfter none .code line = .code) {q : Nat}
    (hq : importPlace cs l.start = q) (hle : q ≤ l.start) (hsettled : Settled (cs.take q))
    (htrail : ∀ c ∈ trail, c = '\n')
    (hl' : anchor.literal (cs.take q ++ r) = some { l with inside := inside }) :
    ∃ before, anchor.literal (cs.take q ++ (line ++ '\n' :: trail ++ r)) =
      some ⟨l.start + (line ++ '\n' :: trail).length, before, inside, l.after⟩ := by
  obtain ⟨hlt, -⟩ := isCodeIndex_importPlace_iff hparts hd hl hq hle
  have hsealed := (importPlace_front hd (hq ▸ hlt)).1
  rw [hq] at hsealed
  refine literal_insert_import hparts hd hsealed hsettled hline hcode ?_ hl' ?_
  · exact List.forall_mem_cons.mpr ⟨rfl, htrail⟩
  · rw [List.length_take_of_le (by omega)]
    exact hle

/-- A patch whose import comes before the declaration puts it on a line of its own there. It takes
effect exactly if its place is in code, and the literal then gets nothing but the entry. -/
theorem takesEffect_of_le (hparts : anchor.parts = some parts) (hd : IsDeclaration mark parts)
    (hanchor : anchor.Named) {cs : List Char} {l : Literal} (hl : anchor.literal cs = some l)
    {fragment line : List Char} (hf : SelfContained fragment) (hline : IsImportLine line) {q : Nat}
    (hq : importPlace cs l.start = q) (hle : q ≤ l.start) :
    ∃ out, applyPatch cs anchor fragment (some line) = some out ∧
      (TakesEffect anchor out line q ↔
        isCodeIndex cs q = true ∧ modeAfter none .code line = .code) ∧
      (TakesEffect anchor out line q →
        ∃ l', anchor.literal out = some l' ∧ l'.content = addEntry l.content fragment) := by
  obtain ⟨trail, r, inside, htrail, hpatch, hl', henters⟩ :=
    applyPatch_import_front hparts hd hanchor hl hf line hq hle
  obtain ⟨-, -, hclosed, -⟩ := (literal_eq_some_iff hparts hd).mp hl
  obtain ⟨hlt, hplace, hcode⟩ := isCodeIndex_importPlace_iff hparts hd hl hq hle
  have hsize : (cs.take q).length = q := List.length_take_of_le (by omega)
  have heffect : TakesEffect anchor (cs.take q ++ (line ++ '\n' :: trail ++ r)) line q ↔
      Settled (cs.take q) ∧ modeAfter none .code line = .code := by
    have hstart : Settled (cs.take q) → modeAfter none .code line = .code →
        ∃ start, anchor.declarationStart (cs.take q ++ (line ++ '\n' :: (trail ++ r))) = some start ∧
          (cs.take q).length + line.length ≤ start := by
      intro hsettled hends
      obtain ⟨before, hnew⟩ :=
        literal_of_import_front hparts hd hl hline hends hq hle hsettled htrail hl'
      rw [List.append_assoc, List.cons_append] at hnew
      refine ⟨_, declarationStart_eq hparts hd hnew, ?_⟩
      rw [hsize, List.length_append]
      simp only
      omega
    have heffect := takesEffect_iff anchor (trail ++ r) hplace hline hstart
    rw [List.append_assoc, List.cons_append]
    rwa [hsize] at heffect
  refine ⟨_, hpatch, by rw [heffect, hcode], fun h => ?_⟩
  obtain ⟨hsettled, hends⟩ := heffect.mp h
  obtain ⟨before, hnew⟩ :=
    literal_of_import_front hparts hd hl hline hends hq hle hsettled htrail hl'
  exact ⟨_, hnew, henters.significant_eq hclosed hf hanchor⟩

/-- An import that is put in behind the start of the declaration does not take effect, since the
declaration stays where it was. -/
theorem not_takesEffect_of_lt (hparts : anchor.parts = some parts) (hd : IsDeclaration mark parts)
    {cs : List Char} {l : Literal} (hl : anchor.literal cs = some l)
    (hlt : l.start < importPlace cs l.start) {p index : Nat} (hp : l.before.length ≤ p)
    (hindex : importPlace cs l.start ≤ index) (first second line : List Char) :
    ¬TakesEffect anchor (insertBoth cs p first (importPlace cs l.start) second) line index := by
  intro h
  obtain ⟨hscript, hfind, -⟩ := (literal_eq_some_iff hparts hd).mp hl
  have hbehind : l.before.length ≤ importPlace cs l.start := by
    rcases importPlace_cases cs l.start with ⟨-, hplace⟩ | ⟨x, quote, t, r, hcs, hquote, ht, -, hplace⟩
    · omega
    · have hletter : 'e' ∉ t := fun he => absurd (ht.all 'e' he) (by decide)
      rw [hcs] at hfind
      have hcases := place_le_or_le hd hquote hletter hfind
      rw [← hplace] at hcases
      exact hcases.resolve_left fun hle => by simp only at hle; omega
  obtain ⟨z, hz⟩ := exists_insertBoth_eq l.before (l.inside ++ l.after) hp hbehind first second
  obtain ⟨start, hstart, hend⟩ := h.before
  rw [hscript, Literal.script] at hz hstart
  rw [hz, Anchor.declarationStart, hparts] at hstart
  simp only [findDeclaration_before hparts hd hl z, Option.map_some, Option.some.injEq] at hstart
  omega

end Patch

/-- A patch with an entry and its import always succeeds. The import takes effect exactly if the place
behind the imports does not lie behind the start of the declaration, is in code, and the import line
leaves no string open; the literal then gets nothing but the entry. -/
theorem import_takesEffect_iff {anchor : Anchor} (hanchor : anchor.Named) {cs : List Char}
    (hlocate : anchor.locate cs ≠ none) {fragment : List Char} (hfragment : SelfContained fragment)
    {i : ImportLine} {file : Path}
    (hname : ∀ c ∈ i.binding.name.toList, isBindingCharacter c = true)
    (hmodule : ∀ c ∈ (Path.moduleSpecifier file i.module).toList, isQuote c = false) :
    ∃ l out index, anchor.literal cs = some l ∧
      applyPatch cs anchor fragment (some (i.render file).toList) = some out ∧
      importIndex cs anchor fragment (i.render file).toList = some index ∧
      (i.render file).toList <+: out.drop index ∧
      (TakesEffect anchor out (i.render file).toList index ↔
        importPlace cs l.start ≤ l.start ∧ isCodeIndex cs (importPlace cs l.start) = true ∧
          modeAfter none .code (i.render file).toList = .code) ∧
      (TakesEffect anchor out (i.render file).toList index →
        ∃ l', anchor.literal out = some l' ∧ l'.content = addEntry l.content fragment) := by
  have hline := isImportLine_render hname hmodule
  generalize (i.render file).toList = line at hline ⊢
  obtain ⟨mark, parts, hparts, hd⟩ := hanchor.exists_parts
  obtain ⟨l, hl⟩ := exists_literal hparts hlocate
  obtain ⟨entries, trailer, hinside, hcut⟩ := exists_cut l.inside
  obtain ⟨lead, trail, hblock, hlead⟩ := exists_importBlock_eq cs line l.start
  have hpoint := locate_eq hparts hd hl hinside hcut
  have hstart := declarationStart_eq hparts hd hl
  have hpatch := applyPatch_import hpoint hstart fragment line
  have hindex := importIndex_eq hpoint hstart hline hblock hlead fragment
  rw [hblock] at hpatch
  obtain ⟨hscript, -⟩ := (literal_eq_some_iff hparts hd).mp hl
  have hlength := congrArg List.length hscript
  simp only [Literal.script, hinside, List.length_append] at hlength
  refine ⟨l, _, _, hl, hpatch, hindex, ?_, ?_⟩
  · have hstands := isPrefix_drop_insertBoth (show l.before.length + entries.length ≤ cs.length by omega)
      (importPlace_le cs l.start)
      (entryBlock anchor (entries.getLast?.any (· != ',')) fragment) (lead ++ (line ++ trail))
    obtain ⟨z, hz⟩ := hstands
    refine ⟨trail ++ z, ?_⟩
    rw [← List.drop_drop, ← hz, List.append_assoc, List.append_assoc, List.drop_left]
  · have hbefore := start_lt_before hparts hd hl
    by_cases hle : importPlace cs l.start ≤ l.start
    · obtain ⟨out, hout, heffect, hnew⟩ :=
        takesEffect_of_le hparts hd hanchor hl hfragment hline rfl hle
      have hnolead : lead = [] := by
        obtain ⟨-, -, himport⟩ :=
          importPlace_front hd (show importPlace cs l.start < cs.length by omega)
        obtain ⟨trail', hblock', -⟩ := himport line
        rw [hblock, Prod.mk.injEq] at hblock'
        refine hlead.resolve_right fun hlead => ?_
        have hletter : (line ++ '\n' :: trail').head? = some 'i' := by
          rw [List.head?_append, hline.ends.1]
          rfl
        have hhead := congrArg List.head? hblock'.2
        rw [hlead, hletter] at hhead
        cases hhead
      rw [hpatch, Option.some.injEq] at hout
      rw [hout, hnolead, if_pos (by simp only; omega), List.length_nil, Nat.add_zero,
        and_iff_right hle]
      exact ⟨heffect, hnew⟩
    · have hindexle : importPlace cs l.start ≤
          (if importPlace cs l.start ≤ l.before.length + entries.length then importPlace cs l.start
            else importPlace cs l.start +
              (entryBlock anchor (entries.getLast?.any (· != ',')) fragment).length) +
            lead.length := by
        split_ifs <;> omega
      have hnot := not_takesEffect_of_lt hparts hd hl (Nat.lt_of_not_le hle)
        (Nat.le_add_right l.before.length entries.length) hindexle
      exact ⟨iff_of_false (hnot _ _ _) fun h => hle h.1, fun h => absurd h (hnot _ _ _)⟩

/-- The import in the comment is taken for a real one, and the new import comes to stand in the
comment behind it. -/
theorem import_takesEffect_iff_in_comment :
    (Anchor.arrayLiteral "xs").Named ∧
      (Anchor.arrayLiteral "xs").locate
        "/*\nimport a from 'a';\n*/\nexport const xs = [\n];\n".toList ≠ none ∧
      SelfContained "    b,".toList ∧ (∀ c ∈ "b".toList, isBindingCharacter c = true) ∧
      (∀ c ∈ (Path.moduleSpecifier ⟨"x.js", []⟩ ⟨"b", []⟩).toList, isQuote c = false) ∧
      ∃ out index, applyPatch "/*\nimport a from 'a';\n*/\nexport const xs = [\n];\n".toList
          (.arrayLiteral "xs") "    b,".toList
          (some (ImportLine.render ⟨.default "b", ⟨"b", []⟩⟩ ⟨"x.js", []⟩).toList) = some out ∧
        importIndex "/*\nimport a from 'a';\n*/\nexport const xs = [\n];\n".toList
          (.arrayLiteral "xs") "    b,".toList
          (ImportLine.render ⟨.default "b", ⟨"b", []⟩⟩ ⟨"x.js", []⟩).toList = some index ∧
        ¬TakesEffect (.arrayLiteral "xs") out
          (ImportLine.render ⟨.default "b", ⟨"b", []⟩⟩ ⟨"x.js", []⟩).toList index := by
  have hnamed : (Anchor.arrayLiteral "xs").Named := isDeclarationCharacter_of_mem (by decide)
  have hlocate : (Anchor.arrayLiteral "xs").locate
      "/*\nimport a from 'a';\n*/\nexport const xs = [\n];\n".toList ≠ none := by
    decide +kernel
  have hfragment : SelfContained "    b,".toList := by
    refine ⟨⟨?_, ?_⟩, ?_, ?_⟩ <;> decide +kernel
  have hname : ∀ c ∈ "b".toList, isBindingCharacter c = true := List.all_eq_true.mp (by decide)
  have hmodule : ∀ c ∈ (Path.moduleSpecifier ⟨"x.js", []⟩ ⟨"b", []⟩).toList,
      isQuote c = false := by
    have hall : ((Path.moduleSpecifier ⟨"x.js", []⟩ ⟨"b", []⟩).toList.all
        fun c => !isQuote c) = true := by
      decide +kernel
    intro c hc
    have hquote := List.all_eq_true.mp hall c hc
    rwa [Bool.not_eq_true'] at hquote
  obtain ⟨l, out, index, hl, hpatch, hindex, -, heffect, -⟩ :=
    import_takesEffect_iff (i := ⟨.default "b", ⟨"b", []⟩⟩) hnamed hlocate hfragment hname hmodule
  have hstart : ((Anchor.arrayLiteral "xs").literal
      "/*\nimport a from 'a';\n*/\nexport const xs = [\n];\n".toList).map Literal.start = some 25 := by
    decide +kernel
  rw [hl, Option.map_some, Option.some.injEq] at hstart
  refine ⟨hnamed, hlocate, hfragment, hname, hmodule, out, index, hpatch, hindex, fun h => ?_⟩
  have hcode := (heffect.mp h).2.1
  rw [hstart] at hcode
  revert hcode
  decide +kernel

end AppScaffold.Script
