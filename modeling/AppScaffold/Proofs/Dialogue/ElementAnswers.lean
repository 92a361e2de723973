import AppScaffold.Proofs.Dialogue.Menus
import AppScaffold.Proofs.Project.Requests
import Mathlib.Data.List.Forall2

/-!
# Answers about components

The variant of a component is named without regard to the case of its letters. The elements in its slot
are listed between commas; blanks around them and blank items among them make no difference. So whoever
names a variant with a slot, wants elements and lists some, gets a request with these elements.
-/

namespace AppScaffold

namespace Text

/-- Blanks at both ends make no difference to what is left without them. -/
theorem trimChars_append {front back : List Char} (hfront : ∀ c ∈ front, isBlank c = true)
    (hback : ∀ c ∈ back, isBlank c = true) (cs : List Char) :
    trimChars (front ++ cs ++ back) = trimChars cs := by
  have hend : ∀ xs, trimEnd (xs ++ back) = trimEnd xs := by
    intro xs
    rw [trimEnd, List.reverse_append,
      List.dropWhile_append_of_pos fun c hc => hback c (List.mem_reverse.mp hc), trimEnd]
  rw [trimChars, List.append_assoc, List.dropWhile_append_of_pos hfront, List.dropWhile_append, trimChars]
  split
  · next hnone =>
    -- All is blank; nothing is left from either side.
    rw [List.isEmpty_iff.mp hnone, List.dropWhile_eq_nil_iff.mpr hback]
  · exact hend _

/-- A piece is an item with blanks around it. -/
def Pads (piece item : String) : Prop :=
  ∃ front back, (∀ c ∈ front, isBlank c = true) ∧ (∀ c ∈ back, isBlank c = true) ∧
    piece.toList = front ++ item.toList ++ back

/-- An item is found again in its piece, unless it has blanks of its own. -/
theorem Pads.trim_eq {piece item : String} (h : Pads piece item)
    (hitem : ∀ c ∈ item.toList, isBlank c = false) : trim piece = item := by
  obtain ⟨front, back, hfront, hback, hpiece⟩ := h
  rw [trim, hpiece, trimChars_append hfront hback, trimChars_of_notMem hitem, String.ofList_toList]

/-- What is not blank and stands in the piece of an item stands in the item. -/
theorem Pads.notMem {piece item : String} (h : Pads piece item) {c : Char} (hc : isBlank c = false)
    (hitem : c ∉ item.toList) : c ∉ piece.toList := by
  obtain ⟨front, back, hfront, hback, hpiece⟩ := h
  have houtside : ∀ cs : List Char, (∀ c ∈ cs, isBlank c = true) → c ∉ cs := fun cs hcs hmem =>
    absurd (hcs c hmem) (Bool.eq_false_iff.mp hc)
  rw [hpiece, List.mem_append, List.mem_append]
  exact not_or_intro (not_or_intro (houtside front hfront) hitem) (houtside back hback)

/-- The case of a letter has nothing to do with blanks. -/
theorem isBlank_toLower (c : Char) : isBlank c.toLower = isBlank c := by
  by_cases h : c.toNat < 128
  · have hall : ∀ n, n < 128 → isBlank (Char.ofNat n).toLower = isBlank (Char.ofNat n) := by decide
    exact of_ascii (P := fun c => isBlank c.toLower = isBlank c) hall h
  · have hbig : ¬(c.val ≥ 'A'.val ∧ c.val ≤ 'Z'.val) := fun hcapital =>
      h ((UInt32.le_iff_toNat_le.mp hcapital.2).trans_lt (by decide))
    delta Char.toLower
    rw [dif_neg hbig]

end Text

namespace Answer

/-- An answer lists items between commas: there may be blanks around each of them, and blank items among
them. -/
def Lists (raw : String) (items : List String) : Prop :=
  ∃ pieces padded, raw = Text.join "," pieces ∧ List.Forall₂ Text.Pads pieces padded ∧
    padded.filter (· ≠ "") = items

/-- Identifiers are read as they are. -/
theorem mapM_identifier {items : List String} (h : ∀ item ∈ items, Name.isIdentifier item = true) :
    items.mapM identifier = .ok items := by
  induction items with
  | nil => rfl
  | cons item items ih =>
    obtain ⟨hitem, hitems⟩ := List.forall_mem_cons.mp h
    have hread : identifier item = .ok item := by
      rw [identifier, Text.trim_of_notMem (isBlank_of_mem_identifier hitem), if_pos hitem]
    rw [List.mapM_cons, hread, ih hitems]
    rfl

/-- From an answer that lists identifiers, these are read in order. -/
theorem Lists.identifierList_eq {raw : String} {items : List String} (h : Lists raw items)
    (hne : items ≠ []) (hitems : ∀ item ∈ items, Name.isIdentifier item = true) :
    identifierList raw = .ok items := by
  obtain ⟨pieces, padded, rfl, hpads, hfilter⟩ := h
  have hpadded : ∀ item ∈ padded, (∀ c ∈ item.toList, Text.isBlank c = false) ∧ ',' ∉ item.toList := by
    intro item hmem
    by_cases hitem : item = ""
    · subst hitem
      exact ⟨List.forall_mem_nil _, List.not_mem_nil⟩
    · have hident : Name.isIdentifier item = true :=
        hitems item (hfilter ▸ List.mem_filter.mpr ⟨hmem, decide_eq_true hitem⟩)
      exact ⟨isBlank_of_mem_identifier hident,
        fun hcomma => absurd (Script.isIdentifierTail_of_mem hident hcomma) (by decide)⟩
  have hfound : pieces.map Text.trim = padded ∧ ∀ piece ∈ pieces, ',' ∉ piece.toList := by
    clear hfilter
    induction hpads with
    | nil => exact ⟨rfl, List.forall_mem_nil _⟩
    | cons hpiece _ ih =>
      obtain ⟨⟨hblank, hcomma⟩, hrest⟩ := List.forall_mem_cons.mp hpadded
      obtain ⟨hmap, hcommas⟩ := ih hrest
      exact ⟨by rw [List.map_cons, hpiece.trim_eq hblank, hmap],
        List.forall_mem_cons.mpr ⟨hpiece.notMem (by decide) hcomma, hcommas⟩⟩
  have hpieces : pieces ≠ [] := by
    rintro rfl
    rw [← hfound.1] at hfilter
    exact hne hfilter.symm
  have hsplit : Text.split ',' (Text.join "," pieces) = pieces := Text.split_join hpieces hfound.2
  rw [identifierList, hsplit, hfound.1, hfilter, mapM_identifier hitems]

end Answer

/-- A variant is found by its name, the case of the letters being free. -/
theorem Variant.ofText?_eq_some {v : Variant} {raw : String}
    (h : Text.sameUpToCase v.name raw = true) : ofText? raw = some v := by
  have hlower : v.name.toList.map Char.toLower = raw.toList.map Char.toLower := by
    simpa [Text.sameUpToCase] using h
  have hblank : ∀ c ∈ raw.toList, Text.isBlank c = false := by
    have hname : (v.name.toList.map Char.toLower).all (fun c => !Text.isBlank c) = true := by
      cases v <;> decide
    intro c hc
    have hmem : c.toLower ∈ v.name.toList.map Char.toLower := hlower ▸ List.mem_map_of_mem hc
    simpa [Text.isBlank_toLower] using List.all_eq_true.mp hname _ hmem
  have hsame : (fun w : Variant => Text.sameUpToCase w.name (Text.trim raw)) =
      fun w => Text.sameUpToCase w.name v.name := by
    funext w
    rw [Text.trim_of_notMem hblank, Text.sameUpToCase, Text.sameUpToCase, hlower]
  rw [ofText?, hsame]
  cases v <;> decide

namespace ComponentMachine

variable {absent : Question → String} {name kind raw : String} {v : Variant} {elements : List String}

/-- Whoever names a variant with a slot and wants elements gets what the list of elements says. -/
theorem drive_elements (hslot : v.hasSlot = true) (hkind : Variant.ofText? kind = some v)
    (hraw : Answer.identifierList raw = .ok elements) :
    (componentMachine.drive absent (.new name) [kind, "y", raw]).result =
      (componentDialogue name).finish (.done v elements) := by
  have hdialogue : componentMachine.drive absent (.new name) [kind, "y", raw] =
      (componentDialogue name).drive absent [kind, "y", raw] := (realizes name).drive_eq rfl
  have hyes : Answer.yesNo "y" false = .ok true := by decide
  rw [hdialogue]
  simp [Dialogue.drive, Dialogue.driveFrom, componentDialogue, ComponentDialogue.question,
    Dialogue.answer, ComponentDialogue.respond, hkind, hslot, hyes, hraw, Transcript.ask]

/-- Whoever names a variant with a slot and wants no elements gets none. -/
theorem drive_no_elements (hslot : v.hasSlot = true) (hkind : Variant.ofText? kind = some v) :
    (componentMachine.drive absent (.new name) [kind, "n"]).result =
      (componentDialogue name).finish (.done v []) := by
  have hdialogue : componentMachine.drive absent (.new name) [kind, "n"] =
      (componentDialogue name).drive absent [kind, "n"] := (realizes name).drive_eq rfl
  have hno : Answer.yesNo "n" false = .ok false := by decide
  rw [hdialogue]
  simp [Dialogue.drive, Dialogue.driveFrom, componentDialogue, ComponentDialogue.question,
    Dialogue.answer, ComponentDialogue.respond, hkind, hslot, hno, Transcript.ask]

end ComponentMachine

end AppScaffold
