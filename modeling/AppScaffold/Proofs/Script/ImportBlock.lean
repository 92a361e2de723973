import AppScaffold.Proofs.Script.Declaration
import AppScaffold.Script.Patch
import Mathlib.Data.List.Basic
import Mathlib.Data.List.TakeWhile
import Mathlib.Tactic.Common

/-!
# Where imports end

The search for imports knows neither comments nor strings. All that can be said of the place it finds
is what stands in front of it: a quote, and then blanks, a semicolon and the end of the line. No
declaration of a literal goes over such a place.
-/

namespace AppScaffold.Script

/-- A character that can follow the quoted module on the line of an import. -/
def isLineRest (c : Char) : Bool := isInlineBlank c || c == ';' || c == '\n' || c == '\r'

/-- What can stand between a quoted module and the text `rest` behind the import. -/
structure IsLineRest (t rest : List Char) : Prop where
  /-- There are blanks, a semicolon and a line end only. -/
  all : ∀ c ∈ t, isLineRest c = true
  /-- Only at the end of the text the line end may be missing. -/
  last : rest = [] ∨ t.getLast? = some '\n'

/-- Blanks and semicolons in front change nothing. -/
theorem IsLineRest.append {s t rest : List Char} (hs : ∀ c ∈ s, isLineRest c = true)
    (ht : IsLineRest t rest) : IsLineRest (s ++ t) rest := by
  refine ⟨fun c hc => ?_, ht.last.imp_right fun hlast => ?_⟩
  · rcases List.mem_append.mp hc with hc | hc
    · exact hs c hc
    · exact ht.all c hc
  · rw [List.getLast?_append, hlast, Option.some_or]

/-- What is cut at the end of a line is the line end, or nothing at the end of the text. -/
theorem isLineRest_of_afterLineEnd {cs rest : List Char} (h : afterLineEnd cs = some rest) :
    ∃ t, cs = t ++ rest ∧ IsLineRest t rest := by
  rw [afterLineEnd.eq_def] at h
  split at h
  · cases h
    exact ⟨[], rfl, by simp, .inl rfl⟩
  · cases h
    exact ⟨['\n'], rfl, List.all_eq_true.mp (by decide), .inr rfl⟩
  · cases h
    exact ⟨['\r', '\n'], rfl, List.all_eq_true.mp (by decide), .inr rfl⟩
  · cases h

/-- The blanks that are dropped from a line may stand behind a module. -/
theorem isLineRest_of_mem_takeWhile {cs : List Char} {c : Char}
    (hc : c ∈ cs.takeWhile isInlineBlank) : isLineRest c = true := by
  have hblank := List.mem_takeWhile_imp hc
  rw [isLineRest, hblank]
  rfl

/-- What is cut behind a quoted module may stand there. -/
theorem isLineRest_of_afterStatementEnd {cs rest : List Char}
    (h : afterStatementEnd cs = some rest) : ∃ t, cs = t ++ rest ∧ IsLineRest t rest := by
  have hblanks : ∀ xs : List Char, ∀ c ∈ xs.takeWhile isInlineBlank, isLineRest c = true :=
    fun _ _ => isLineRest_of_mem_takeWhile
  have hsplit := List.takeWhile_append_dropWhile (p := isInlineBlank) (l := cs)
  rw [afterStatementEnd] at h
  split at h
  · rename_i xs hdrop
    obtain ⟨t, ht, hrest⟩ := isLineRest_of_afterLineEnd h
    have hsplit' := List.takeWhile_append_dropWhile (p := isInlineBlank) (l := xs)
    refine ⟨cs.takeWhile isInlineBlank ++ ([';'] ++ (xs.takeWhile isInlineBlank ++ t)), ?_,
      .append (hblanks cs) (.append (List.all_eq_true.mp (by decide)) (.append (hblanks xs) hrest))⟩
    rw [List.append_assoc, List.append_assoc, List.append_assoc, ← ht, hsplit',
      List.singleton_append, ← hdrop, hsplit]
  · obtain ⟨t, ht, hrest⟩ := isLineRest_of_afterLineEnd h
    refine ⟨cs.takeWhile isInlineBlank ++ t, ?_, .append (hblanks cs) hrest⟩
    rw [List.append_assoc, ← ht, hsplit]

/-- What is cut up to the end of a quoted module ends with the quote and the rest of its line. -/
theorem exists_of_afterQuoted {mark : Char} {cs rest : List Char}
    (h : afterQuoted mark cs = some rest) :
    ∃ x t, cs = x ++ mark :: (t ++ rest) ∧ IsLineRest t rest := by
  have hsplit := List.takeWhile_append_dropWhile (p := fun c => c != mark && c != '\n') (l := cs)
  rw [afterQuoted] at h
  split at h
  · rename_i c xs hdrop
    split_ifs at h with hc
    obtain ⟨t, rfl, hrest⟩ := isLineRest_of_afterStatementEnd h
    rw [hdrop, hc] at hsplit
    exact ⟨_, t, hsplit.symm, hrest⟩
  · cases h

/-- What is cut up to the first quoted module that ends its line ends with a quote and the rest of
the line. -/
theorem exists_of_afterModule {cs rest : List Char} (h : afterModule cs = some rest) :
    ∃ x mark t, cs = x ++ mark :: (t ++ rest) ∧ isQuote mark = true ∧ IsLineRest t rest := by
  induction cs with
  | nil => cases h
  | cons c cs ih =>
    rw [afterModule] at h
    split at h
    · rename_i r hr
      cases h
      split_ifs at hr with hquote
      obtain ⟨x, t, rfl, hrest⟩ := exists_of_afterQuoted hr
      refine ⟨c :: x, c, t, rfl, ?_, hrest⟩
      simp only [Bool.or_eq_true, decide_eq_true_eq] at hquote
      rcases hquote with rfl | rfl <;> decide
    · obtain ⟨x, mark, t, rfl, hmark, hrest⟩ := ih h
      exact ⟨c :: x, mark, t, rfl, hmark, hrest⟩

/-- What follows a text that is cut stands at the end. -/
theorem exists_of_afterImport {before : Option Char} {cs rest : List Char}
    (h : afterImport before cs = some rest) :
    ∃ x mark t, cs = x ++ mark :: (t ++ rest) ∧ isQuote mark = true ∧ IsLineRest t rest := by
  rw [afterImport] at h
  split_ifs at h
  split at h
  · rename_i r hr
    split_ifs at h
    obtain ⟨x, mark, t, rfl, hmark, hrest⟩ := exists_of_afterModule h
    rw [afterText_eq_some_iff] at hr
    exact ⟨"import".toList ++ x, mark, t, by rw [hr, List.append_assoc], hmark, hrest⟩
  · cases h

/-- The place for an import line: behind the imports that begin before `limit`, or at the top. -/
def importPlace (cs : List Char) (limit : Nat) : Nat := (importBlockEnd cs limit).getD 0

/-- The place for an import line is the top, or has a quote and the rest of its line in front. -/
theorem importPlace_cases (cs : List Char) (limit : Nat) :
    importBlockEnd cs limit = none ∧ importPlace cs limit = 0 ∨
      ∃ x mark t r, cs = x ++ mark :: (t ++ r) ∧ isQuote mark = true ∧ IsLineRest t r ∧
        importBlockEnd cs limit = some (importPlace cs limit) ∧
        importPlace cs limit = (x ++ mark :: t).length := by
  cases hend : importBlockEnd cs limit with
  | none => exact .inl ⟨rfl, by rw [importPlace, hend, Option.getD_none]⟩
  | some stop =>
    have hplace : importPlace cs limit = stop := by rw [importPlace, hend, Option.getD_some]
    obtain ⟨s, hs, rfl⟩ := Option.map_eq_some_iff.mp hend
    have hmem := List.takeWhile_subset _ (List.mem_of_getLast? hs)
    obtain ⟨a, b, r, rfl, -, hfit, hstart, hstop⟩ := mem_spans hmem
    obtain ⟨x, mark, t, rfl, hmark, hrest⟩ := exists_of_afterImport hfit
    refine .inr ⟨a ++ x, mark, t, r, by rw [List.append_assoc], hmark, hrest, by rw [hplace], ?_⟩
    rw [hplace, hstop, hstart]
    simp only [List.length_append, List.length_cons]
    omega

end AppScaffold.Script
