import AppScaffold.Proofs.Dialogue.Collected
import AppScaffold.Proofs.Disk.Walking
import AppScaffold.Proofs.Project.Modules

/-!
# Where templates put their files

Each file of an artifact is called by a stem with an extension, in a directory that is called after the
artifact or in none. An extension may hold slashes, and then it leads on into further directories. If
it does not go up, neither does a path of a template.
-/

namespace AppScaffold

open Disk

namespace Text

/-- What stands before the first separator belongs to the first piece. -/
theorem splitChars_append_of_notMem {sep : Char} {cs : List Char} (h : sep ∉ cs) (rest : List Char) :
    splitChars sep (cs ++ rest) =
      (cs ++ (splitChars sep rest).headD []) :: (splitChars sep rest).tail := by
  induction cs with
  | nil =>
    cases hrest : splitChars sep rest with
    | nil =>
      have hlength := length_splitChars sep rest
      rw [hrest, List.length_nil] at hlength
      omega
    | cons piece pieces => rw [List.nil_append, hrest]; rfl
  | cons c cs ih =>
    rw [List.mem_cons, not_or] at h
    rw [List.cons_append, splitChars, if_neg (Ne.symm h.1), ih h.2]
    rfl

end Text

namespace Path

/-- A text without slashes belongs to the first segment. -/
theorem ofText_append {stem : String} (h : '/' ∉ stem.toList) (ending : String) :
    ofText (stem ++ ending) = ⟨stem ++ (ofText ending).first, (ofText ending).rest⟩ := by
  unfold ofText Text.split
  rw [String.toList_append, Text.splitChars_append_of_notMem h]
  cases hpieces : Text.splitChars '/' ending.toList with
  | nil =>
    have hlength := Text.length_splitChars '/' ending.toList
    rw [hpieces, List.length_nil] at hlength
    omega
  | cons piece pieces => simp

/-- A path goes up if one of its segments does. -/
theorem up_mem_steps_iff {p : Path} : .up ∈ Disk.steps p ↔ ".." ∈ p.first :: p.rest := by
  have hup : ∀ s, segmentStep s = some .up ↔ s = ".." := by
    intro s
    unfold segmentStep
    split_ifs <;> simp_all
  have hslash : .up ∉ (if endsWithSlash p then [Step.slash] else []) := by
    split_ifs <;> simp
  rw [Disk.steps, List.mem_append, or_iff_left hslash, bareSteps, List.mem_filterMap]
  simp [hup]

end Path

/-- The extensions do not go up, if they lead on into directories at all. -/
def Extensions.StayBelow (e : Extensions) : Prop :=
  ∀ ending ∈ [e.component, e.script], ".." ∉ (Path.ofText ending).rest

/-- A stem of a file name: it stays within one segment and is not made of dots. -/
structure IsStem (stem : String) : Prop where
  /-- There is no slash in it. -/
  slash : '/' ∉ stem.toList
  /-- There is something other than dots in it. -/
  solid : ∃ c ∈ stem.toList, c ≠ '.'

/-- The path leads into a directory or file of its own and does not go up. -/
structure Path.Sinks (p : Path) : Prop where
  /-- The path begins with a segment of its own. -/
  first : p.first ≠ ""
  /-- It does not go up. -/
  stays : .up ∉ Disk.steps p

/-- A file with a stem and an extension that does not go up. -/
theorem IsStem.sinks {stem ending : String} (h : IsStem stem)
    (hending : ".." ∉ (Path.ofText ending).rest) : (Path.ofText (stem ++ "." ++ ending)).Sinks := by
  have hslash : '/' ∉ (stem ++ ".").toList := by simp [h.slash]
  obtain ⟨c, hc, hdot⟩ := h.solid
  have hfirst : IsSegment (stem ++ "." ++ (Path.ofText ending).first) :=
    isSegment_of_mem (c := c) (by simp [hc]) hdot
  obtain ⟨hempty, -, hup⟩ := isSegment_iff.mp hfirst
  rw [Path.ofText_append hslash]
  refine ⟨hempty, ?_⟩
  rw [Path.up_mem_steps_iff, List.mem_cons, not_or]
  exact ⟨Ne.symm hup, hending⟩

namespace Path.Sinks

variable {p q : Path}

/-- A segment of its own sinks. -/
theorem of_isSegment {s : String} (h : IsSegment s) : Path.Sinks ⟨s, []⟩ := by
  obtain ⟨hempty, -, hup⟩ := isSegment_iff.mp h
  refine ⟨hempty, ?_⟩
  rw [up_mem_steps_iff, List.mem_singleton]
  exact Ne.symm hup

/-- Joined paths sink if both do. -/
theorem join (hp : p.Sinks) (hq : q.Sinks) : (p.join q).Sinks := by
  have hne : p ≠ empty := fun h => hp.first (congrArg Path.first h)
  constructor
  · obtain ⟨kept, hjoin, -⟩ := exists_join_eq hne (isAbsolute_of_first hq.first)
    rw [hjoin]
    exact hp.first
  · rw [steps_join hq.first, List.mem_append, not_or]
    exact ⟨fun hup => hp.stays (List.mem_append_left _ hup), hq.stays⟩

end Path.Sinks

namespace Template

variable {e : Extensions} {a : Archetype} {p : Parameters} {name : String}

/-- An identifier is a segment that sinks, and a stem. -/
theorem sinks_of_isIdentifier (h : Name.isIdentifier name = true) :
    (Path.ofText name).Sinks ∧ IsStem name := by
  rw [Path.ofText_of_notMem (notMem_of_isIdentifier h).1]
  obtain ⟨c, hc, htail⟩ := exists_mem_of_isIdentifier h
  exact ⟨.of_isSegment (isSegment_of_isIdentifier h).1, (notMem_of_isIdentifier h).1, c, hc,
    (ne_of_isIdentifierTail htail).1⟩

/-- An identifier with an ending is a stem. -/
theorem isStem_append (h : Name.isIdentifier name = true) {ending : String}
    (hending : '/' ∉ ending.toList) : IsStem (name ++ ending) := by
  obtain ⟨-, hslash, c, hc, hdot⟩ := sinks_of_isIdentifier h
  exact ⟨by simp [hslash, hending], c, by simp [hc], hdot⟩

/-- Where the files of an artifact go: a file is called by a stem with an extension, and it is in a
directory with the name of the artifact or in none. -/
inductive PutsAt (e : Extensions) (p : Parameters) : Path → Prop where
  /-- A file in the directory of the archetype. -/
  | directly {stem ending : String} (hstem : IsStem stem) (hending : ending ∈ [e.component, e.script]) :
    PutsAt e p (.ofText (stem ++ "." ++ ending))
  /-- A file in the directory of the artifact. -/
  | named {name stem ending : String} (hgiven : p.text "name" = some name)
    (hname : Name.isIdentifier name = true) (hstem : IsStem stem)
    (hending : ending ∈ [e.component, e.script]) : PutsAt e p (within name (stem ++ "." ++ ending))

/-- The files of a component go into its directory. -/
theorem putsAt_of_mem_componentTree (hgiven : p.text "name" = some name)
    (hname : Name.isIdentifier name = true) {kind : String} {component styles : List String}
    {f : GeneratedFile} (hf : f ∈ (componentTree e name kind component styles).files) :
    PutsAt e p f.path := by
  have hstem := (sinks_of_isIdentifier hname).2
  have hmem := FileTree.mem_of_mem_ofList hf
  simp only [List.mem_cons, List.not_mem_nil, or_false] at hmem
  rcases hmem with rfl | rfl | rfl
  · exact .named hgiven hname hstem (by simp)
  · exact .named hgiven hname (isStem_append hname (by decide)) (by simp)
  · exact .named hgiven hname ⟨by decide, 'i', by decide, by decide⟩ (by simp)

/-- Where the files go that a template makes. -/
theorem putsAt_of_instantiate {tree : FileTree} (h : instantiate e a p = .ok tree) :
    ∀ f ∈ tree.files, PutsAt e p f.path := by
  intro f hf
  cases treeOf_of_instantiate h with
  | component hgiven hname => exact putsAt_of_mem_componentTree hgiven hname hf
  | slice hgiven hname =>
    rw [List.mem_singleton.mp (FileTree.mem_of_mem_ofList hf)]
    exact .named hgiven hname (isStem_append hname (by decide)) (by simp)
  | store =>
    rw [List.mem_singleton.mp (FileTree.mem_of_mem_ofList hf)]
    exact .directly ⟨by decide, 's', by decide, by decide⟩ (by simp)
  | address =>
    rw [List.mem_singleton.mp (FileTree.mem_of_mem_ofList hf)]
    exact .directly ⟨by decide, 'a', by decide, by decide⟩ (by simp)
  | functions => exact absurd hf List.not_mem_nil
  | navigation =>
    have hfile : ∀ stem ∈ ["AppNavigation", "MainNavigation", "LoginNavigation"],
        PutsAt e p (.ofText (e.componentFile stem)) := by
      intro stem hstem
      have hsolid : IsStem stem := by
        simp only [List.mem_cons, List.not_mem_nil, or_false] at hstem
        rcases hstem with rfl | rfl | rfl
        · exact ⟨by decide, 'N', by decide, by decide⟩
        · exact ⟨by decide, 'N', by decide, by decide⟩
        · exact ⟨by decide, 'N', by decide, by decide⟩
      exact .directly hsolid (by simp)
    rcases List.mem_append.mp (FileTree.mem_of_mem_ofList hf) with hf | hf
    · simp only [List.mem_cons, List.not_mem_nil, or_false] at hf
      rcases hf with rfl | rfl
      · exact hfile "AppNavigation" (by decide)
      · exact hfile "MainNavigation" (by decide)
    · split_ifs at hf
      · rw [List.mem_singleton.mp hf]
        exact hfile "LoginNavigation" (by decide)
      · cases hf

/-- Files of artifacts sink. -/
theorem PutsAt.sinks {path : Path} (h : PutsAt e p path) (he : e.StayBelow) : path.Sinks := by
  cases h with
  | directly hstem hending => exact hstem.sinks (he _ hending)
  | named _ hname hstem hending => exact (sinks_of_isIdentifier hname).1.join (hstem.sinks (he _ hending))

end Template

end AppScaffold
