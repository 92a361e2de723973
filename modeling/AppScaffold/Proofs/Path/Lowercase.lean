import AppScaffold.Proofs.Path.Components

/-!
# Names in lowercase

The directory of the state may be spelled in lowercase. Lowercase letters come from letters: no
progression of the character standard leads to a slash, a quote, a blank or a dot, so that the
lowercase form of an ordinary name is an ordinary name, and the directory of the state that is in
use is as ordinary as the one of the layout.
-/

namespace AppScaffold

namespace Text

/-- The reserved code points and the dot, in ranges. -/
def reservedRanges : List (Nat × Nat) :=
  [(9, 13), (0x20, 0x20), (0x22, 0x22), (0x27, 0x27), (0x2e, 0x2f), (0x5c, 0x5c), (0x60, 0x60),
   (0x85, 0x85), (0xa0, 0xa0), (0x1680, 0x1680), (0x2000, 0x200a), (0x2028, 0x2029),
   (0x202f, 0x202f), (0x205f, 0x205f), (0x3000, 0x3000)]

/-- Reserved characters and the dot are in the ranges. -/
theorem inRanges_of_isReserved {c : Char} (h : isReserved c = true ∨ c = '.') :
    inRanges reservedRanges c.toNat = true := by
  rcases h with h | rfl
  · unfold isReserved Address.isQuoteOrBackslash Script.isQuote isBlank at h
    simp only [Bool.or_eq_true, beq_iff_eq, Bool.and_eq_true, decide_eq_true_eq] at h
    rcases h with (rfl | (((rfl | rfl) | rfl) | rfl)) | h
    · decide
    · decide
    · decide
    · decide
    · decide
    · simp only [inRanges, reservedRanges, List.any_cons, List.any_nil, Bool.or_eq_true,
        Bool.and_eq_true, decide_eq_true_eq]
      omega
  · decide

/-- No progression of capitals leads to a reserved character. -/
theorem lowercaseShifts_apart :
    (lowercaseShifts.all fun e => reservedRanges.all fun r =>
      decide (0 ≤ e.1.first + e.2 ∧ (e.1.last + e.2 < r.1 ∨ r.2 < e.1.first + e.2))) = true := by
  decide +kernel

/-- A character that a shift yields is in no range. -/
theorem inRanges_shift {e : CodeRange × Int} (he : e ∈ lowercaseShifts) {n : Nat}
    (hn : e.1.has n = true) : inRanges reservedRanges (Char.ofNat (n + e.2).toNat).toNat = false := by
  have hapart := List.all_eq_true.mp (List.all_eq_true.mp lowercaseShifts_apart e he)
  unfold CodeRange.has at hn
  simp only [Bool.and_eq_true, decide_eq_true_eq] at hn
  by_cases hvalid : (n + e.2).toNat.isValidChar
  · have hvalue : (Char.ofNat (n + e.2).toNat).toNat = (n + e.2).toNat := by
      rw [Char.ofNat, dif_pos hvalid]
      rfl
    rw [hvalue]
    unfold inRanges
    rw [List.any_eq_false]
    intro r hr
    have hr := hapart r hr
    simp only [decide_eq_true_eq] at hr
    simp only [Bool.and_eq_true, decide_eq_true_eq]
    omega
  · rw [Char.ofNat, dif_neg hvalid]
    decide

/-- Where the lowercase form of a character is reserved or a dot, it is the character itself. -/
theorem lowercaseChar_eq {c d : Char} (hd : d ∈ lowercaseChar c)
    (hreserved : inRanges reservedRanges d.toNat = true) : lowercaseChar c = [c] ∧ d = c := by
  unfold lowercaseChar at hd ⊢
  split_ifs at hd ⊢ with hascii hdot
  · have hall : ∀ n, n < 128 → inRanges reservedRanges (Char.ofNat n).toLower.toNat = true →
        (Char.ofNat n).toLower = Char.ofNat n := by
      decide
    obtain rfl := List.mem_singleton.mp hd
    rw [of_ascii (P := fun c => inRanges reservedRanges c.toLower.toNat = true → c.toLower = c)
      hall hascii hreserved]
    exact ⟨rfl, rfl⟩
  · rw [List.mem_cons, List.mem_singleton] at hd
    rcases hd with rfl | rfl
    · exact absurd hreserved (by decide)
    · exact absurd hreserved (by decide)
  · split at hd
    · next range shift hfind =>
      obtain rfl := List.mem_singleton.mp hd
      rw [inRanges_shift (List.mem_of_find?_eq_some hfind)
        (List.find?_some (p := fun e : CodeRange × Int => e.1.has c.toNat) hfind)] at hreserved
      cases hreserved
    · next hfind =>
      exact ⟨rfl, List.mem_singleton.mp hd⟩

/-- The piece of the lowercase form that one character becomes. -/
def lowercasePiece (before : List Char) (c : Char) (rest : List Char) : List Char :=
  if c.toNat = 0x3a3 then
    [if casedNext before && !casedNext rest then Char.ofNat 0x3c2 else Char.ofNat 0x3c3]
  else lowercaseChar c

/-- The same holds in context. -/
theorem lowercasePiece_eq {before rest : List Char} {c d : Char}
    (hd : d ∈ lowercasePiece before c rest)
    (hreserved : inRanges reservedRanges d.toNat = true) :
    lowercasePiece before c rest = [c] ∧ d = c := by
  unfold lowercasePiece at hd ⊢
  split_ifs at hd ⊢ with hsigma hfinal
  · rw [List.mem_singleton.mp hd] at hreserved
    exact absurd hreserved (by decide)
  · rw [List.mem_singleton.mp hd] at hreserved
    exact absurd hreserved (by decide)
  · exact lowercaseChar_eq hd hreserved

/-- A reserved character of the lowercase form, and a dot in it, is one of the text. -/
theorem mem_of_mem_lowercaseAfter {before cs : List Char} {d : Char}
    (hd : d ∈ lowercaseAfter before cs) (hreserved : inRanges reservedRanges d.toNat = true) :
    d ∈ cs := by
  induction cs generalizing before with
  | nil => exact hd
  | cons c rest ih =>
    have heq : lowercaseAfter before (c :: rest) =
        lowercasePiece before c rest ++ lowercaseAfter (c :: before) rest := rfl
    rw [heq] at hd
    rcases List.mem_append.mp hd with hd | hd
    · rw [(lowercasePiece_eq hd hreserved).2]
      exact List.mem_cons_self
    · exact List.mem_cons_of_mem _ (ih hd)

/-- No character is lost in the lowercase form. -/
theorem lowercasePiece_ne_nil (before : List Char) (c : Char) (rest : List Char) :
    lowercasePiece before c rest ≠ [] := by
  unfold lowercasePiece lowercaseChar
  split_ifs
  · exact List.cons_ne_nil _ _
  · exact List.cons_ne_nil _ _
  · exact List.cons_ne_nil _ _
  · exact List.cons_ne_nil _ _
  · split
    · exact List.cons_ne_nil _ _
    · exact List.cons_ne_nil _ _

/-- A lowercase form that is all dots is the text itself. -/
theorem lowercaseAfter_of_dots {before cs : List Char}
    (h : ∀ d ∈ lowercaseAfter before cs, d = '.') : lowercaseAfter before cs = cs := by
  induction cs generalizing before with
  | nil => rfl
  | cons c rest ih =>
    have heq : lowercaseAfter before (c :: rest) =
        lowercasePiece before c rest ++ lowercaseAfter (c :: before) rest := rfl
    rw [heq] at h ⊢
    obtain ⟨d, hd⟩ := List.exists_mem_of_ne_nil _ (lowercasePiece_ne_nil before c rest)
    have hdot := h d (List.mem_append_left _ hd)
    rw [(lowercasePiece_eq hd (by rw [hdot]; decide)).1,
      ih fun e he => h e (List.mem_append_right _ he)]
    rfl

/-- The lowercase form of a segment is a segment. -/
theorem isSegment_lowercase {s : String} (h : IsSegment s) : IsSegment (lowercase s) := by
  rw [isSegment_iff] at h ⊢
  have hdots : ∀ t : String, (∀ d ∈ t.toList, d = '.') → lowercase s = t → s = t := by
    intro t ht heq
    have hlist : lowercaseAfter [] s.toList = t.toList := by
      rw [← heq, lowercase, String.toList_ofList]
    rw [← heq, lowercase, lowercaseAfter_of_dots (by rwa [hlist]), String.ofList_toList]
  exact ⟨fun heq => h.1 (hdots _ (by simp) heq), fun heq => h.2.1 (hdots _ (by simp) heq),
    fun heq => h.2.2 (hdots _ (by simp) heq)⟩

/-- The lowercase form of a text without reserved characters has none. -/
theorem isReserved_of_mem_lowercase {s : String} (h : ∀ c ∈ s.toList, isReserved c = false)
    {d : Char} (hd : d ∈ (lowercase s).toList) : isReserved d = false := by
  rw [lowercase, String.toList_ofList] at hd
  by_contra hreserved
  rw [Bool.not_eq_false] at hreserved
  have hmem := mem_of_mem_lowercaseAfter hd (inRanges_of_isReserved (.inl hreserved))
  rw [h d hmem] at hreserved
  cases hreserved

/-- The lowercase form of a text without slashes has none. -/
theorem notMem_slash_lowercase {s : String} (h : '/' ∉ s.toList) : '/' ∉ (lowercase s).toList := by
  rw [lowercase, String.toList_ofList]
  exact fun hmem => h (mem_of_mem_lowercaseAfter hmem (by decide))

end Text

namespace Layout

variable {l : Layout}

/-- The directory of the state that is in use is that of the layout, or its last name is in lowercase. -/
theorem usedReduxDir_cases (h : l.reduxDir.IsDownward) (v : Volume) (root : Path) :
    l.usedReduxDir v root = l.reduxDir ∨ ∃ name ∈ l.reduxDir.names,
      (l.usedReduxDir v root).components =
        (l.reduxDir.names.dropLast ++ [Text.lowercase name]).map .name := by
  unfold usedReduxDir
  split_ifs
  · exact .inl rfl
  split
  · exact .inl rfl
  next name hname =>
  dsimp only
  split_ifs
  · obtain ⟨hmem, hsegment⟩ := h.isSegment_fileName hname
    refine .inr ⟨name, hmem, ?_⟩
    rw [h.components_withFileName (Path.components_ne_nil_of_fileName hname)
      (Text.isSegment_lowercase hsegment) (Text.notMem_slash_lowercase (h.slash name hmem)),
      h.components, Path.names]
    simp [List.map_dropLast]
  · exact .inl rfl

/-- The directory of the state that is in use is ordinary if the one of the layout is. -/
theorem isOrdinary_usedReduxDir (h : l.reduxDir.IsOrdinary) (v : Volume) (root : Path) :
    (l.usedReduxDir v root).IsOrdinary := by
  obtain heq | ⟨name, hmem, hcomponents⟩ := usedReduxDir_cases h.isDownward v root
  · rwa [heq]
  · refine (Path.IsOrdinary.of_names hcomponents fun s hs => ?_).1
    rcases List.mem_append.mp hs with hs | hs
    · exact h.plain s (List.dropLast_subset _ hs)
    · rw [List.mem_singleton.mp hs]
      exact fun d => Text.isReserved_of_mem_lowercase (h.plain name hmem)

/-- The directory of the state that is in use goes down if the one of the layout does. -/
theorem isDownward_usedReduxDir (h : l.reduxDir.IsDownward) (v : Volume) (root : Path) :
    (l.usedReduxDir v root).IsDownward := by
  obtain heq | ⟨name, hmem, hcomponents⟩ := usedReduxDir_cases h v root
  · rwa [heq]
  · refine (Path.IsDownward.of_names hcomponents fun s hs => ?_).1
    rcases List.mem_append.mp hs with hs | hs
    · exact h.slash s (List.dropLast_subset _ hs)
    · rw [List.mem_singleton.mp hs]
      exact Text.notMem_slash_lowercase (h.slash name hmem)

end Layout

end AppScaffold
