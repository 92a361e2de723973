import AppScaffold.Proofs.Script.ImportPlace
import AppScaffold.Proofs.Script.Registry
import Mathlib.Data.List.Basic
import Mathlib.Data.List.Chain
import Mathlib.Data.List.Pairwise
import Mathlib.Tactic.Common

/-!
# Empty elements

An element of a literal is empty if its comma follows on the bracket or on another comma, with nothing
but blanks and comments between them. A patch looks for the last character of content to find out whether
it has to put a comma in, and passes only ASCII blanks on the way. Any other blank counts as content, also
one that itself stands behind a comma, and then the comma that is put in closes an empty element. In no
other way does a patch make one.
-/

namespace AppScaffold.Script

/-- A comma between elements. -/
def comma : Char × Role := (',', .code)

/-- The character is part of an element, or a comma: it is no blank of any kind between tokens, and it is
in no comment. -/
def isSolid : Char × Role → Bool
  | (c, .code) => !Text.isBlank c
  | (_, .quoteStart) | (_, .quoted) | (_, .quoteEnd) => true
  | (_, .commentStart) | (_, .comment) => false

/-- What is left without blanks and comments. -/
def solid (rs : List (Char × Role)) : List (Char × Role) := rs.filter isSolid

/-- What stands in a literal has no empty element. -/
structure Filled (rs : List (Char × Role)) : Prop where
  /-- It does not begin with a comma. -/
  first : (solid rs).head? ≠ some comma
  /-- No comma follows on a comma. -/
  next : (solid rs).IsChain fun a b => ¬(a = comma ∧ b = comma)

instance : DecidablePred Filled := fun rs =>
  decidable_of_iff
    ((solid rs).head? ≠ some comma ∧ (solid rs).IsChain fun a b => ¬(a = comma ∧ b = comma))
    ⟨fun h => ⟨h.1, h.2⟩, fun h => ⟨h.first, h.next⟩⟩

/-- The content ends with a blank that is taken for an element where there is none: behind a comma, or
with nothing before it. -/
structure Stray (rs : List (Char × Role)) : Prop where
  /-- The last character of content is a blank, though not an ASCII blank. -/
  blank : ∃ c, (significant rs).getLast? = some c ∧ Text.isBlank c = true ∧ isAsciiBlank c = false
  /-- No element stands before it. -/
  missing : solid rs = [] ∨ (solid rs).getLast? = some comma

section Solid

variable {r : Char × Role} {xs ys rs : List (Char × Role)}

/-- What is read first is left first. -/
theorem solid_append (xs ys : List (Char × Role)) : solid (xs ++ ys) = solid xs ++ solid ys :=
  List.filter_append ..

/-- ASCII blanks are blanks. -/
theorem isBlank_of_isAsciiBlank {c : Char} (h : isAsciiBlank c = true) : Text.isBlank c = true := by
  simp only [isAsciiBlank, Bool.or_eq_true, beq_iff_eq] at h
  rcases h with (((rfl | rfl) | rfl) | rfl) | rfl <;> decide

/-- Where there is no content, nothing is left. -/
theorem solid_eq_nil (h : significant rs = []) : solid rs = [] := by
  rw [significant, List.filterMap_eq_nil_iff] at h
  rw [solid, List.filter_eq_nil_iff]
  rintro ⟨c, role⟩ hr
  have hnone := h _ hr
  cases role with
  | code =>
    have hblank : isAsciiBlank c = true := by simpa using hnone
    simp [isSolid, isBlank_of_isAsciiBlank hblank]
  | commentStart | comment => simp [isSolid]
  | quoteStart | quoted | quoteEnd => cases hnone

/-- What counts for the search is left unless it is a blank that is not ASCII. -/
theorem isSolid_or_of_isCounted (h : isCounted r = true) :
    isSolid r = true ∨ Text.isBlank r.1 = true ∧ isAsciiBlank r.1 = false := by
  obtain ⟨c, role⟩ := r
  cases role with
  | code =>
    have hascii : isAsciiBlank c = false := by simpa [isCounted] using h
    by_cases hblank : Text.isBlank c = true
    · exact .inr ⟨hblank, hascii⟩
    · exact .inl (by simpa [isSolid] using hblank)
  | quoteEnd => exact .inl rfl
  | commentStart | comment | quoteStart | quoted => cases h

/-- Only what is left decides whether elements are empty. -/
theorem filled_congr (h : solid xs = solid ys) : Filled xs ↔ Filled ys := by
  constructor
  · exact fun hxs => ⟨h ▸ hxs.first, h ▸ hxs.next⟩
  · exact fun hys => ⟨h ▸ hys.first, h ▸ hys.next⟩

/-- Without a comma no element is empty. -/
theorem filled_of_notMem (h : comma ∉ solid rs) : Filled rs := by
  refine ⟨fun hhead => h (List.mem_of_head? hhead), ?_⟩
  refine List.Pairwise.isChain (List.pairwise_of_forall_mem_list ?_)
  rintro a ha b - ⟨rfl, -⟩
  exact h ha

/-- Behind anything at all, elements that are not empty stay so, and they make none empty. -/
theorem filled_append_iff (hys : Filled ys) : Filled (xs ++ ys) ↔ Filled xs := by
  constructor
  · intro h
    have hnext := h.next
    rw [solid_append, List.isChain_append] at hnext
    refine ⟨fun hhead => h.first ?_, hnext.1⟩
    rw [solid_append, List.head?_append, hhead, Option.some_or]
  · intro hxs
    refine ⟨?_, ?_⟩
    · rw [solid_append, List.head?_append]
      have hfirst := hxs.first
      cases hhead : (solid xs).head? with
      | none => exact hys.first
      | some a => rwa [hhead] at hfirst
    · rw [solid_append, List.isChain_append]
      refine ⟨hxs.next, hys.next, fun a _ b hb hab => hys.first ?_⟩
      rw [Option.mem_def] at hb
      rw [hb, hab.2]

/-- A comma closes an empty element exactly if nothing, or another comma, is left before it. -/
theorem filled_append_comma_iff (hys : Filled ys) :
    Filled (xs ++ comma :: ys) ↔
      Filled xs ∧ ¬(solid xs = [] ∨ (solid xs).getLast? = some comma) := by
  have hsolid : solid (xs ++ comma :: ys) = solid xs ++ comma :: solid ys := by
    rw [solid_append, solid, solid, List.filter_cons_of_pos (by decide)]
    rfl
  have hbehind : (comma :: solid ys).IsChain fun a b => ¬(a = comma ∧ b = comma) :=
    List.isChain_cons.mpr ⟨fun b hb hab => hys.first (by rw [hb, hab.2]), hys.next⟩
  constructor
  · intro h
    have hfirst := h.first
    have hnext := h.next
    rw [hsolid, List.isChain_append] at hnext
    rw [hsolid, List.head?_append] at hfirst
    refine ⟨⟨fun hhead => hfirst (by rw [hhead, Option.some_or]), hnext.1⟩, ?_⟩
    rintro (hnil | hlast)
    · rw [hnil] at hfirst
      exact hfirst rfl
    · exact hnext.2.2 _ hlast _ rfl ⟨rfl, rfl⟩
  · rintro ⟨hxs, hmissing⟩
    rw [not_or] at hmissing
    obtain ⟨a, rest, hcons⟩ := List.exists_cons_of_ne_nil hmissing.1
    have hfirst := hxs.first
    rw [hcons, List.head?_cons] at hfirst
    refine ⟨by rw [hsolid, hcons]; exact hfirst, ?_⟩
    rw [hsolid, List.isChain_append]
    refine ⟨hxs.next, hbehind, fun b hb _ _ hab => hmissing.2 ?_⟩
    rw [← hab.1]
    exact hb

end Solid

/-- Nothing but a blank and a comment stands between the commas of the second text. -/
example : Filled (roles .code "a, // ,\n [',,', b], ".toList) ∧
    ¬Filled (roles .code "a, /* b */ , c".toList) := by
  decide

/-- An element that holds no comma, its comma, and elements that are not empty. -/
theorem filled_element {x y : List Char} (hx : Settled x) (hcomma : ',' ∉ x)
    (hsolid : solid (roles .code x) ≠ []) (hy : Filled (roles .code y)) :
    Filled (roles .code (x ++ ',' :: y)) := by
  have hread : roles .code (',' :: y) = comma :: roles .code y := by
    rw [roles]
    rfl
  have hnone : comma ∉ solid (roles .code x) := by
    intro hmem
    have hchar := List.mem_map_of_mem (f := Prod.fst) (List.mem_filter.mp hmem).1
    rw [map_fst_roles] at hchar
    exact hcomma hchar
  rw [hx.roles_append, hread, filled_append_comma_iff hy]
  refine ⟨filled_of_notMem hnone, ?_⟩
  rintro (hnil | hlast)
  · exact hsolid hnil
  · exact hnone (List.mem_of_getLast? hlast)

/-- There is a stray blank at the end of a literal exactly if an entry gets a comma in front though no
element is left before it. -/
theorem Cut.stray_iff {entries trailer : List Char} (hcut : Cut entries trailer)
    (h : IsClosed (entries ++ trailer)) :
    Stray (roles .code (entries ++ trailer)) ↔
      entries.getLast?.any (· != ',') = true ∧
        (solid (roles .code entries) = [] ∨ (solid (roles .code entries)).getLast? = some comma) := by
  obtain ⟨-, htrailer, hroles⟩ := hcut.isClosed h
  have hsolid : solid (roles .code (entries ++ trailer)) = solid (roles .code entries) := by
    rw [hroles, solid_append, solid_eq_nil (htrailer.significant_eq_nil hcut.uncounted), List.append_nil]
  constructor
  · rintro ⟨⟨c, hlast, hblank, -⟩, hmissing⟩
    rw [hcut.significant_eq h, hcut.getLast?_content] at hlast
    have hne : c ≠ ',' := by
      rintro rfl
      exact absurd hblank (by decide)
    exact ⟨by simpa [hlast] using hne, hsolid ▸ hmissing⟩
  · rintro ⟨hneeds, hmissing⟩
    rcases hcut.ends with rfl | ⟨e, c, rfl, hcounted⟩
    · cases hneeds
    have hne : c ≠ ',' := by simpa using hneeds
    have hread : roles .code (e ++ [c]) = rolesBefore (some c) .code e ++
        [(c, ((modeAfter (some c) .code e).step c trailer.head?).1)] := by
      rw [roles_eq_rolesBefore, hcut.read_alone.1, (read_concat ..).1]
    refine ⟨⟨c, ?_, ?_⟩, hsolid ▸ hmissing⟩
    · rw [hcut.significant_eq h, hcut.getLast?_content, List.getLast?_concat]
    · refine (isSolid_or_of_isCounted hcounted).resolve_left fun hleft => ?_
      -- the last character would be left, and it is no comma
      rw [hread, solid_append, solid, solid, List.filter_cons_of_pos hleft, List.filter_nil] at hmissing
      rcases hmissing with hnil | hlast
      · exact List.append_ne_nil_of_right_ne_nil _ (List.cons_ne_nil _ _) hnil
      · rw [List.getLast?_concat, Option.some.injEq] at hlast
        exact hne (congrArg Prod.fst hlast)

/-- An entry makes an element of a literal empty exactly if the literal ends with a stray blank. -/
theorem Enters.filled_iff {anchor : Anchor} {fragment inside inside' : List Char}
    (h : Enters anchor fragment inside inside') (hanchor : anchor.Named) (hclosed : IsClosed inside)
    (hf : SelfContained fragment) (hfilled : Filled (roles .code fragment)) :
    Filled (roles .code inside') ↔
      Filled (roles .code inside) ∧ ¬Stray (roles .code inside) := by
  obtain ⟨entries, trailer, rfl, hcut, rfl⟩ := h
  obtain ⟨-, htrailer, hold⟩ := hcut.isClosed hclosed
  have hbehind := solid_eq_nil (htrailer.significant_eq_nil hcut.uncounted)
  have hentries : Filled (roles .code (entries ++ trailer)) ↔ Filled (roles .code entries) :=
    filled_congr (by rw [hold, solid_append, hbehind, List.append_nil])
  have hadded : Filled (('\n', .code) :: roles .code fragment ++ roles .code trailer) := by
    refine (filled_congr ?_).mpr hfilled
    rw [solid_append, hbehind, List.append_nil]
    rfl
  rw [(hcut.roles_addEntry hclosed hf hanchor).2, hentries, hcut.stray_iff hclosed]
  cases entries.getLast?.any (· != ',') with
  | false => simpa using filled_append_iff hadded
  | true =>
    rw [and_iff_right rfl]
    exact filled_append_comma_iff hadded

/-- An import line is put in between code, in front of the declaration, and leaves nothing open. -/
structure LeadsIn (cs line : List Char) (start : ℕ) : Prop where
  /-- It is an import line. -/
  isImport : IsImportLine line
  /-- No string is left open. -/
  ends : modeAfter none .code line = .code
  /-- The imports do not reach into the declaration. -/
  front : importPlace cs start ≤ start
  /-- Behind them the reader is in code. -/
  code : isCodeIndex cs (importPlace cs start) = true

/-- A patch of a script with a literal, with an import that leads in or without one, leaves the literal
with the entry in it. -/
theorem exists_enters {anchor : Anchor} (hanchor : anchor.Named) {cs : List Char} {l : Literal}
    (hl : anchor.literal cs = some l) {fragment : List Char} (hf : SelfContained fragment)
    {importLine : Option (List Char)} (himport : ∀ line ∈ importLine, LeadsIn cs line l.start) :
    IsClosed l.inside ∧ ∃ out l', applyPatch cs anchor fragment importLine = some out ∧
      anchor.literal out = some l' ∧ Enters anchor fragment l.inside l'.inside := by
  obtain ⟨mark, parts, hparts, hd⟩ := hanchor.exists_parts
  obtain ⟨-, -, hclosed, -⟩ := (literal_eq_some_iff hparts hd).mp hl
  refine ⟨hclosed, ?_⟩
  cases importLine with
  | none =>
    obtain ⟨inside, hpatch, hl', henters⟩ := applyPatch_enters hparts hd hanchor hl hf
    exact ⟨_, _, hpatch, hl', henters⟩
  | some line =>
    obtain ⟨hline, hends, hle, hcode⟩ := himport line rfl
    obtain ⟨trail, r, inside, htrail, hpatch, hl', henters⟩ :=
      applyPatch_import_front hparts hd hanchor hl hf line rfl hle
    have hsettled := (isCodeIndex_importPlace_iff hparts hd hl rfl hle).2.2.mp hcode
    obtain ⟨before, hnew⟩ :=
      literal_of_import_front hparts hd hl hline hends rfl hle hsettled htrail hl'
    exact ⟨_, _, hpatch, hnew, henters⟩

end AppScaffold.Script
