import AppScaffold.Proofs.Script.Skeletons
import Mathlib.Data.List.Basic
import Mathlib.Tactic.Common

/-!
# The slot of a component

A component shows what its variant wraps around a slot. The lines around the slot are the same whatever
is put into it; for each element there are an opening tag, a line to be filled in and a closing tag.
-/

namespace AppScaffold

namespace Skeleton

/-- The line that passes on the children. -/
def childrenLine (v : Variant) : String := v.slotIndent ++ "\x7bchildren\x7d"

/-- The lines for an element in the slot: a tag that opens it, a comment, and a tag that closes it. -/
def elementLines (v : Variant) (element : String) : List String :=
  [v.slotIndent ++ "<" ++ element ++ ">",
    v.slotIndent ++ "    \x7b/* Add your " ++ element ++ " code here */\x7d",
    v.slotIndent ++ "</" ++ element ++ ">"]

/-- Without elements the children are passed on. -/
theorem indented_slot_nil (v : Variant) : indented v.slotIndent (slot []) = [childrenLine v] := rfl

/-- The slot has the lines for its elements, in order. -/
theorem indented_slot (v : Variant) {elements : List String} (hne : elements ≠ []) :
    indented v.slotIndent (slot elements) = elements.flatMap (elementLines v) := by
  rw [slot, if_neg (by simpa using hne), indented, List.map_flatMap]
  exact List.flatMap_congr fun element _ => by simp [elementLines, String.append_assoc]

/-- The lines around the slot do not depend on what is in it. Each is inside brackets, and none passes on
the children. -/
theorem exists_shown_eq (v : Variant) : ∃ front back,
    (∀ line ∈ front ++ back, Script.IsQuiet line ∧ line.toList.head? = some ' ' ∧
      line ≠ childrenLine v) ∧
    ∀ elements, shown v elements =
      front ++ (if v.hasSlot then indented v.slotIndent (slot elements) else []) ++ back := by
  cases v with
  | button | touchableOpacity =>
    refine ⟨_, [], ?_, fun elements => by
      rw [Variant.hasSlot, if_neg Bool.false_ne_true, List.append_nil, List.append_nil]
      rfl⟩
    decide +kernel
  | view | text | scrollView =>
    refine ⟨[_], [_], ?_, fun elements => by
      rw [Variant.hasSlot, if_pos rfl]
      rfl⟩
    decide +kernel
  | modal =>
    refine ⟨[_, _], [_, _], ?_, fun elements => by
      rw [Variant.hasSlot, if_pos rfl]
      rfl⟩
    decide +kernel

/-- What is in the slot is quiet and inside brackets, if the elements are identifiers. -/
theorem quiet_slot (v : Variant) {elements : List String}
    (helements : ∀ element ∈ elements, Name.isIdentifier element = true) :
    ∀ line ∈ indented v.slotIndent (slot elements), Script.IsQuiet line ∧ line.toList.head? = some ' ' := by
  have hindent : Script.IsQuiet v.slotIndent ∧ ∃ cs, v.slotIndent.toList = ' ' :: cs := by
    cases v with
    | _ => exact ⟨.of_chars rfl, _, rfl⟩
  obtain ⟨hquiet, cs, hcs⟩ := hindent
  have hline : ∀ line, Script.IsQuiet line → Script.IsQuiet (v.slotIndent ++ line) ∧
      (v.slotIndent ++ line).toList.head? = some ' ' := by
    intro line hline
    rw [String.toList_append, hcs]
    exact ⟨(Script.isQuiet_append _ _).mpr ⟨hquiet, hline⟩, rfl⟩
  by_cases hne : elements = []
  · subst hne
    rw [indented_slot_nil]
    exact List.forall_mem_singleton.mpr (hline _ (.of_chars rfl))
  · rw [slot, if_neg (by simpa using hne), indented]
    simp only [List.forall_mem_map, List.forall_mem_flatMap, List.forall_mem_cons, List.not_mem_nil,
      false_imp_iff, implies_true, and_true]
    intro element hmem
    have helement := Script.IsQuiet.of_isIdentifier (helements element hmem)
    refine ⟨hline _ ?_, hline _ ?_, hline _ ?_⟩
    all_goals simp only [Script.isQuiet_append, helement, and_true]
    · exact ⟨.of_chars rfl, .of_chars rfl⟩
    · exact ⟨.of_chars rfl, .of_chars rfl⟩
    · exact ⟨.of_chars rfl, .of_chars rfl⟩

/-- What a component shows is quiet and inside brackets. -/
theorem quiet_shown (v : Variant) {elements : List String}
    (helements : ∀ element ∈ elements, Name.isIdentifier element = true) :
    ∀ line ∈ shown v elements, Script.IsQuiet line ∧ line.toList.head? = some ' ' := by
  obtain ⟨front, back, haround, hshown⟩ := exists_shown_eq v
  rw [hshown]
  intro line hline
  rcases List.mem_append.mp hline with hline | hline
  · rcases List.mem_append.mp hline with hline | hline
    · obtain ⟨hquiet, hhead, -⟩ := haround line (List.mem_append_left _ hline)
      exact ⟨hquiet, hhead⟩
    · split_ifs at hline with hslot
      · exact quiet_slot v helements line hline
      · cases hline
  · obtain ⟨hquiet, hhead, -⟩ := haround line (List.mem_append_right _ hline)
    exact ⟨hquiet, hhead⟩

end Skeleton

namespace Script

variable {name : String} {elements : List String}

/-- A component names its style sheet. -/
theorem names_component (v : Variant) (hname : Name.isIdentifier name = true)
    (helements : ∀ element ∈ elements, Name.isIdentifier element = true) :
    Names (Skeleton.component v name elements) ["react", "react-native", "./" ++ name ++ ".style"] := by
  have hquiet := IsQuiet.of_isIdentifier hname
  have hstyles : IsQuiet ("./" ++ name ++ ".style") := by
    rw [isQuiet_append, isQuiet_append]
    exact ⟨⟨.of_chars rfl, hquiet⟩, .of_chars rfl⟩
  have himported : IsQuiet (Skeleton.importedElements v) := by
    cases v with
    | _ => decide +kernel
  have hproperties : IsQuiet (Skeleton.braced (Skeleton.properties v)) := by
    cases v with
    | _ => decide +kernel
  have hlead : Names [Skeleton.importDefault "React" "react",
      Skeleton.importNamed (Skeleton.importedElements v) "react-native", Skeleton.importStyles name]
      ["react", "react-native", "./" ++ name ++ ".style"] :=
    (Names.importDefault (.of_chars rfl) (.of_chars rfl)).append
      ((Names.importNamed himported (.of_chars rfl)).append
        (Names.importNamed (.of_chars rfl) hstyles))
  have hopening : ∀ line ∈ ["",
      "const " ++ name ++ " = (" ++ Skeleton.braced (Skeleton.properties v) ++ ") => \x7b",
      "    return ("], IsQuiet line := by
    simp only [List.forall_mem_cons, List.not_mem_nil, false_imp_iff, implies_true, isQuiet_append,
      hquiet, hproperties, and_true]
    and_intros
    all_goals exact .of_chars rfl
  have hclosing : ∀ line ∈ ["    );", "\x7d;", "", Skeleton.exportDefault name], IsQuiet line := by
    simp only [List.forall_mem_cons, List.not_mem_nil, false_imp_iff, implies_true, and_true]
    exact ⟨.of_chars rfl, .of_chars rfl, .of_chars rfl, hquiet.exportDefault⟩
  have hshown := fun line hline => (Skeleton.quiet_shown v helements line hline).1
  exact ((hlead.append_quiet hopening).append_quiet hshown).append_quiet hclosing

end Script

end AppScaffold
