import AppScaffold.Proofs.Dialogue.ElementAnswers
import AppScaffold.Proofs.Project.PlanFiles
import AppScaffold.Proofs.Script.Slots

/-!
# Elements in the slot of a component

A component that is made with elements differs from the one that is made without them in one place: the
line that passes on the children. The lines for the elements stand there instead, behind the same blanks.
-/

namespace AppScaffold

namespace Script

/-- A script has elements in the place of the one line of another script that passes on the children.
For each of them there are, behind the blanks of that line, a tag that opens it, a comment behind four
more blanks, and a tag that closes it. All other lines are the same. -/
def FillsSlot (elements : List String) (full bare : String) : Prop :=
  ∃ indent front back, (∀ c ∈ indent.toList, c = ' ') ∧
    Text.split '\n' bare = front ++ (indent ++ "\x7bchildren\x7d") :: back ∧
    indent ++ "\x7bchildren\x7d" ∉ front ++ back ∧
    Text.split '\n' full = front ++ elements.flatMap (fun element =>
      [indent ++ "<" ++ element ++ ">",
        indent ++ "    \x7b/* Add your " ++ element ++ " code here */\x7d",
        indent ++ "</" ++ element ++ ">"]) ++ back

variable {v : Variant} {name : String} {elements : List String}

/-- No line of the frame of a component passes on the children. -/
theorem childrenLine_notMem_frame {lines : List String}
    (h : ∀ line ∈ lines, line.toList.getLast? ≠ some '\x7d') : Skeleton.childrenLine v ∉ lines := by
  intro hmem
  refine h _ hmem ?_
  rw [Skeleton.childrenLine, String.toList_append, List.getLast?_append]
  rfl

/-- The elements of a component are in the place of the children. -/
theorem fillsSlot_component (hslot : v.hasSlot = true) (hname : Name.isIdentifier name = true)
    (hne : elements ≠ []) (helements : ∀ element ∈ elements, Name.isIdentifier element = true) :
    FillsSlot elements (Skeleton.text (Skeleton.component v name elements))
      (Skeleton.text (Skeleton.component v name [])) := by
  obtain ⟨front, back, haround, hshown⟩ := Skeleton.exists_shown_eq v
  obtain ⟨head, tail, hhead, htail, hframe⟩ : ∃ head tail : List String,
      (∀ line ∈ head, line.toList.getLast? ≠ some '\x7d') ∧
      (∀ line ∈ tail, line.toList.getLast? ≠ some '\x7d') ∧
      ∀ elements, Skeleton.component v name elements =
        head ++ (front ++ Skeleton.indented v.slotIndent (Skeleton.slot elements) ++ back) ++ tail := by
    refine ⟨_, _, ?_, ?_, fun elements => by rw [Skeleton.component, hshown, if_pos hslot]⟩
    · simp [Skeleton.importDefault, Skeleton.importNamed, Skeleton.importStyles, List.getLast?_cons]
    · simp [toList_exportDefault, List.getLast?_cons]
  refine ⟨v.slotIndent, head ++ front, back ++ tail ++ [""], ?_, ?_, ?_, ?_⟩
  · have hindent : v.slotIndent.toList.all (· == ' ') = true := by
      cases v with
      | _ => decide
    exact fun c hc => eq_of_beq (List.all_eq_true.mp hindent c hc)
  · rw [split_text (names_component v hname (List.forall_mem_nil _)).ends, hframe,
      Skeleton.indented_slot_nil]
    simp [Skeleton.childrenLine]
  · have hshown : Skeleton.childrenLine v ∉ front ++ back := fun hmem => (haround _ hmem).2.2 rfl
    have hnil : Skeleton.childrenLine v ∉ [""] := childrenLine_notMem_frame (by simp)
    simp only [List.mem_append, not_or] at hshown ⊢
    exact ⟨⟨childrenLine_notMem_frame hhead, hshown.1⟩,
      ⟨hshown.2, childrenLine_notMem_frame htail⟩, hnil⟩
  · rw [split_text (names_component v hname helements).ends, hframe, Skeleton.indented_slot v hne]
    simp only [List.append_assoc]
    rfl

end Script

namespace Template

variable {e : Extensions} {p : Parameters} {name : String} {v : Variant}

/-- The files of a component. -/
theorem instantiate_component (hgiven : p.text "name" = some name)
    (hname : Name.isIdentifier name = true) (hvariant : p.text "variant" = some v.name)
    (helements : ∀ element ∈ p.list "elements", Name.isIdentifier element = true) :
    instantiate e .component p = .ok (componentTree e name (v.name ++ " component")
      (Skeleton.component v name (p.list "elements")) (Skeleton.componentStyles v.styling)) := by
  have hrequired : checkRequired .component p ["name", "variant"] = .ok () := by
    simp only [checkRequired, required, hgiven, hvariant]
  have hfound : Variant.ofText? v.name = some v :=
    Variant.ofText?_eq_some (Text.sameUpToCase_refl v.name)
  have hall : (p.list "elements").find? (fun element => !Name.isIdentifier element) = none :=
    List.find?_eq_none.mpr fun element hmem => by simp [helements element hmem]
  simp only [instantiate, Archetype.required, hrequired, variantTree, identifier_eq hgiven hname,
    required, hvariant, bind, Except.bind]
  rw [hfound]
  dsimp only
  rw [hall]

/-- With the extensions that come with the library none of the files takes the place of another. -/
theorem files_componentTree_within (hname : Name.isIdentifier name = true) (kind : String)
    (component styles : List String) :
    (componentTree {} name kind component styles).files =
      [⟨within name (Extensions.componentFile {} name), Skeleton.text component, name ++ " " ++ kind⟩,
        ⟨within name (Extensions.scriptFile {} (name ++ ".style")), Skeleton.text styles,
          name ++ " styles"⟩,
        ⟨within name (Extensions.scriptFile {} "index"), Skeleton.text (Skeleton.index name),
          name ++ " index"⟩] := by
  have hslash := (notMem_of_isIdentifier hname).1
  rw [files_componentTree hname, within_identifier hname, within_identifier hname,
    within_identifier hname]
  · simp [Extensions.componentFile, Extensions.scriptFile, String.append_assoc]
  · decide
  · simp [Extensions.scriptFile, hslash]
  · simp [Extensions.componentFile, hslash]

end Template

namespace Request

/-- A component with elements in its slot, or without any. -/
def component (name : String) (v : Variant) (elements : List String) : Request :=
  ⟨.component, .ofList ([("name", .text name), ("variant", .text v.name)] ++
    if elements.isEmpty then [] else [("elements", .list elements)])⟩

variable {name : String} {v : Variant} {elements : List String}

/-- What a dialogue finds out when everything is known. -/
theorem finish_component : (componentDialogue name).finish (.done v elements) =
    .ok (.component name v elements) := rfl

/-- The files of a component. -/
theorem instantiate_component (e : Extensions) (hname : Name.isIdentifier name = true)
    (helements : ∀ element ∈ elements, Name.isIdentifier element = true) :
    Template.instantiate e (component name v elements).archetype (component name v elements).params =
      .ok (Template.componentTree e name (v.name ++ " component")
        (Skeleton.component v name elements) (Skeleton.componentStyles v.styling)) := by
  have hgiven : (component name v elements).params.get? "name" = some (.text name) ∧
      (component name v elements).params.get? "variant" = some (.text v.name) ∧
      (component name v elements).params.list "elements" = elements := by
    cases elements with
    | nil => exact ⟨rfl, rfl, rfl⟩
    | cons element elements => exact ⟨rfl, rfl, rfl⟩
  have hvariant : Name.isIdentifier v.name = true := by cases v <;> decide
  have h := Template.instantiate_component (e := e)
    (Parameters.text_of_isIdentifier hgiven.1 hname) hname
    (Parameters.text_of_isIdentifier hgiven.2.1 hvariant) (hgiven.2.2.symm ▸ helements)
  rwa [hgiven.2.2] at h

/-- Whoever names a variant with a slot, wants elements and lists some, gets a component in which these
elements stand, in order, in the place of the line that passes on the children. Its other two files are
those of the component without elements. With the extensions that come with the library the three files
are all there is. -/
theorem component_fills_slot (hname : Name.isIdentifier name = true) (hslot : v.hasSlot = true)
    (hne : elements ≠ []) (helements : ∀ element ∈ elements, Name.isIdentifier element = true)
    {kind raw : String} (hkind : Text.sameUpToCase v.name kind = true)
    (hraw : Answer.Lists raw elements) (absent : Question → String) (e : Extensions) :
    (componentMachine.drive absent (.new name) [kind, "y", raw]).result =
        .ok (.component name v elements) ∧
      (componentMachine.drive absent (.new name) [kind, "n"]).result = .ok (.component name v []) ∧
      ∃ full bare style index : GeneratedFile,
        Template.instantiate e .component (component name v elements).params =
          .ok (.ofList [full, style, index]) ∧
        Template.instantiate e .component (component name v []).params =
          .ok (.ofList [bare, style, index]) ∧
        full.path = Template.within name (e.componentFile name) ∧ full.path = bare.path ∧
        full.description = bare.description ∧ Script.FillsSlot elements full.content bare.content ∧
        (e = {} → (FileTree.ofList [full, style, index]).files = [full, style, index] ∧
          (FileTree.ofList [bare, style, index]).files = [bare, style, index]) := by
  have hvariant := Variant.ofText?_eq_some hkind
  refine ⟨?_, ?_, _, _, _, _, instantiate_component e hname helements,
    instantiate_component e hname (List.forall_mem_nil _), rfl, rfl, rfl,
    Script.fillsSlot_component hslot hname hne helements, ?_⟩
  · rw [ComponentMachine.drive_elements hslot hvariant (hraw.identifierList_eq hne helements),
      finish_component]
  · rw [ComponentMachine.drive_no_elements hslot hvariant, finish_component]
  · rintro rfl
    exact ⟨Template.files_componentTree_within hname _ _ _, Template.files_componentTree_within hname _ _ _⟩

/-- An overlay with two elements, where the answers have a blank item and capitals in odd places. -/
theorem component_fills_slot_modal :
    Name.isIdentifier "Card" = true ∧ Variant.modal.hasSlot = true ∧ ["Text", "Image"] ≠ [] ∧
      (∀ element ∈ ["Text", "Image"], Name.isIdentifier element = true) ∧
      Text.sameUpToCase Variant.modal.name "mOdAl" = true ∧
      Answer.Lists " Text ,, Image" ["Text", "Image"] ∧
      (componentMachine.drive Dialogue.noScriptedAnswer (.new "Card")
        ["mOdAl", "y", " Text ,, Image"]).result = .ok (.component "Card" .modal ["Text", "Image"]) ∧
      ∃ full bare style index : GeneratedFile,
        Template.instantiate {} .component (component "Card" .modal ["Text", "Image"]).params =
          .ok (.ofList [full, style, index]) ∧
        Template.instantiate {} .component (component "Card" .modal []).params =
          .ok (.ofList [bare, style, index]) ∧
        Script.FillsSlot ["Text", "Image"] full.content bare.content := by
  have hlists : Answer.Lists " Text ,, Image" ["Text", "Image"] := by
    refine ⟨[" Text ", "", " Image"], ["Text", "", "Image"], by decide, ?_, by decide⟩
    have hspace : ∀ c ∈ [' '], Text.isBlank c = true := List.forall_mem_singleton.mpr rfl
    have hnothing : ∀ c ∈ ([] : List Char), Text.isBlank c = true := List.forall_mem_nil _
    exact .cons ⟨[' '], [' '], hspace, hspace, by decide⟩
      (.cons ⟨[], [], hnothing, hnothing, rfl⟩ (.cons ⟨[' '], [], hspace, hnothing, by decide⟩ .nil))
  have hname : Name.isIdentifier "Card" = true := by decide
  have hslot : Variant.modal.hasSlot = true := rfl
  have hne : ["Text", "Image"] ≠ [] := List.cons_ne_nil _ _
  have helements : ∀ element ∈ ["Text", "Image"], Name.isIdentifier element = true := by decide
  have hkind : Text.sameUpToCase Variant.modal.name "mOdAl" = true := by decide
  obtain ⟨hrequest, -, full, bare, style, index, hfull, hbare, -, -, -, hfills, -⟩ :=
    component_fills_slot hname hslot hne helements hkind hlists Dialogue.noScriptedAnswer {}
  exact ⟨hname, hslot, hne, helements, hkind, hlists, hrequest, full, bare, style, index, hfull, hbare,
    hfills⟩

end Request

end AppScaffold
