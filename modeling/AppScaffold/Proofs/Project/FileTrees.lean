import AppScaffold.FileTree
import AppScaffold.Proofs.Path.Components
import Mathlib.Data.Finset.Card
import Mathlib.Data.List.Induction

/-!
# File trees

A tree is made by adding files one after the other. Files whose paths are alike are one file under two
spellings: the later one takes the place of the earlier one, and with it its place in the order. So a tree
has each path once, in the order of the first additions, and the last file that was added under it.
-/

namespace AppScaffold

/-- A list with one more element has it at the end, if it was not there before. -/
theorem eraseDups_concat {α : Type} [BEq α] [LawfulBEq α] [DecidableEq α] (xs : List α) (x : α) :
    (xs ++ [x]).eraseDups = if x ∈ xs then xs.eraseDups else xs.eraseDups ++ [x] := by
  rw [List.eraseDups_append]
  split_ifs with hmem
  · rw [show [x].removeAll xs = [] by simp [List.removeAll, hmem], List.eraseDups_nil, List.append_nil]
  · rw [show [x].removeAll xs = [x] by simp [List.removeAll, hmem], List.eraseDups_cons, List.filter_nil,
      List.eraseDups_nil]

namespace Path

/-- A slash parts the segments of a path. -/
theorem ofText_slash (a b : String) : ofText (a ++ "/" ++ b) =
    ⟨(ofText a).first, (ofText a).rest ++ (ofText b).first :: (ofText b).rest⟩ := by
  have hne : ∀ cs, Text.splitChars '/' cs ≠ [] := by
    intro cs hnil
    have hlength := Text.length_splitChars '/' cs
    rw [hnil, List.length_nil] at hlength
    omega
  obtain ⟨first, rest, ha⟩ := List.exists_cons_of_ne_nil (hne a.toList)
  obtain ⟨first', rest', hb⟩ := List.exists_cons_of_ne_nil (hne b.toList)
  have hchars : (a ++ "/" ++ b).toList = a.toList ++ '/' :: b.toList := by simp
  simp [ofText, Text.split, hchars, Text.splitChars_append_cons, ha, hb]

/-- What follows a slash is read segment by segment, whatever stands before it. -/
theorem components_slash (a b : String) : (ofText (a ++ "/" ++ b)).components =
    (ofText (a ++ "/")).components ++
      ((ofText b).first :: (ofText b).rest).filterMap Component.ofSegment := by
  have hslash : ofText (a ++ "/") = ⟨(ofText a).first, (ofText a).rest ++ [""]⟩ := by
    rw [← String.append_empty (s := a ++ "/"), ofText_slash]
    rfl
  have hlead : ∀ segments segments' : List String, segments ≠ [] → segments' ≠ [] →
      (⟨(ofText a).first, segments⟩ : Path).lead = (⟨(ofText a).first, segments'⟩ : Path).lead := by
    intro segments segments' h h'
    simp [lead, h, h']
  have hempty : Component.ofSegment "" = none := rfl
  rw [ofText_slash, hslash, components, components, hlead _ ((ofText a).rest ++ [""]) (by simp) (by simp)]
  simp [List.filterMap_append, hempty]

/-- An idle segment between slashes makes no difference. -/
theorem alike_of_idle {s : String} (hidle : idle s = true) (hslash : '/' ∉ s.toList) (a b : String) :
    (ofText (a ++ "/" ++ (s ++ "/" ++ b))).alike (ofText (a ++ "/" ++ b)) = true := by
  have hnone := ofSegment_eq_none_iff.mpr hidle
  rw [alike, components_slash, components_slash a b, ofText_slash s b, ofText_of_notMem hslash]
  simp [hnone]

/-- A leading dot makes a difference unless there is one already. -/
theorem alike_here_iff (a : String) :
    (ofText ("./" ++ a)).alike (ofText a) = true ↔ (ofText a).first = "." := by
  have hdot : (ofText ("./" ++ a)).components =
      .here :: ((ofText a).first :: (ofText a).rest).filterMap Component.ofSegment :=
    components_slash "." a
  have hhere : Component.here ∉ (ofText a).rest.filterMap Component.ofSegment := by
    intro hmem
    obtain ⟨s, -, hs⟩ := List.mem_filterMap.mp hmem
    rcases eq_of_mem_ofSegment (Option.mem_toList.mpr hs) with h | h
    · cases h
    · cases h
  rw [alike, hdot, beq_iff_eq]
  constructor
  · intro heq
    have hmem : Component.here ∈ (ofText a).components := heq ▸ List.mem_cons_self
    have hlead := (List.mem_append.mp hmem).resolve_right hhere
    unfold lead at hlead
    split_ifs at hlead with _ _ hfirst
    · cases hlead
    · cases List.mem_singleton.mp hlead
    · exact hfirst
    · cases List.mem_singleton.mp hlead
    · cases List.mem_singleton.mp hlead
  · intro hfirst
    rw [components, lead, hfirst, List.filterMap_cons_none (by decide)]
    rfl

end Path

namespace FileTree

/-- A file that is placed is in the tree. -/
theorem mem_place (file : GeneratedFile) (fs : List GeneratedFile) :
    file ∈ place file fs := by
  induction fs with
  | nil => exact List.mem_cons_self
  | cons f fs ih =>
    rw [place]
    split_ifs
    · exact List.mem_cons_self
    · exact List.mem_cons_of_mem _ ih

/-- A file that is placed is there, and the others were there before. -/
theorem mem_of_mem_place {file f : GeneratedFile} {fs : List GeneratedFile} (h : f ∈ place file fs) :
    f = file ∨ f ∈ fs := by
  induction fs with
  | nil => exact .inl (List.mem_singleton.mp h)
  | cons g fs ih =>
    rw [place] at h
    split_ifs at h with halike
    · rcases List.mem_cons.mp h with rfl | h
      · exact .inl rfl
      · exact .inr (List.mem_cons_of_mem _ h)
    · rcases List.mem_cons.mp h with rfl | h
      · exact .inr List.mem_cons_self
      · exact (ih h).imp_right (List.mem_cons_of_mem _)

/-- No two of the files have paths that are alike. -/
def Apart (fs : List GeneratedFile) : Prop :=
  fs.Pairwise fun f g => f.path.components ≠ g.path.components

/-- Placing a file keeps the files apart. -/
theorem Apart.place {fs : List GeneratedFile} (h : Apart fs) (file : GeneratedFile) :
    Apart (place file fs) := by
  induction fs with
  | nil => exact List.pairwise_singleton _ _
  | cons g fs ih =>
    obtain ⟨hg, hfs⟩ := List.pairwise_cons.mp h
    rw [FileTree.place]
    split_ifs with halike
    · rw [Path.alike, beq_iff_eq] at halike
      refine List.pairwise_cons.mpr ⟨fun f hf => ?_, hfs⟩
      rw [← halike]
      exact hg f hf
    · rw [Path.alike, beq_iff_eq] at halike
      refine List.pairwise_cons.mpr ⟨fun f hf => ?_, ih hfs⟩
      rcases mem_of_mem_place hf with rfl | hf
      · exact halike
      · exact hg f hf

/-- The last of the files that a tree is made of is placed among the others. -/
theorem files_ofList_concat (files : List GeneratedFile) (f : GeneratedFile) :
    (ofList (files ++ [f])).files = place f (ofList files).files := by
  rw [ofList, List.foldl_concat]
  rfl

/-- The files of a tree are apart. -/
theorem apart_ofList (files : List GeneratedFile) : Apart (ofList files).files := by
  induction files using List.reverseRecOn with
  | nil => exact List.Pairwise.nil
  | append_singleton files f ih =>
    rw [files_ofList_concat]
    exact ih.place f

/-- The files of a tree are among those that it was made of. -/
theorem mem_of_mem_ofList {files : List GeneratedFile} {f : GeneratedFile}
    (h : f ∈ (ofList files).files) : f ∈ files := by
  induction files using List.reverseRecOn with
  | nil => exact h
  | append_singleton files g ih =>
    rw [files_ofList_concat] at h
    rcases mem_of_mem_place h with rfl | h
    · exact List.mem_concat_self
    · exact List.mem_append_left _ (ih h)

/-- A tree that was made of files has files. -/
theorem ofList_ne_nil {files : List GeneratedFile} (h : files ≠ []) : (ofList files).files ≠ [] := by
  obtain ⟨front, f, rfl⟩ := (List.eq_nil_or_concat' files).resolve_left h
  rw [files_ofList_concat]
  exact List.ne_nil_of_mem (mem_place f _)

/-- The components of the paths of files. -/
def pathsOf (fs : List GeneratedFile) : List (List Component) := fs.map fun f => f.path.components

/-- The first path is that of the first file. -/
theorem pathsOf_cons (f : GeneratedFile) (fs : List GeneratedFile) :
    pathsOf (f :: fs) = f.path.components :: pathsOf fs := rfl

/-- A file goes to the end, unless its path is there; then the paths stay as they are. -/
theorem pathsOf_place (file : GeneratedFile) (fs : List GeneratedFile) :
    pathsOf (place file fs) =
      if file.path.components ∈ pathsOf fs then pathsOf fs
      else pathsOf fs ++ [file.path.components] := by
  induction fs with
  | nil => rfl
  | cons g fs ih =>
    rw [place]
    by_cases halike : g.path.components = file.path.components
    · rw [if_pos (by rw [Path.alike, halike, beq_self_eq_true]), pathsOf_cons, pathsOf_cons, halike,
        if_pos List.mem_cons_self]
    · rw [if_neg (by rwa [Path.alike, beq_iff_eq]), pathsOf_cons, pathsOf_cons, ih]
      by_cases hmem : file.path.components ∈ pathsOf fs
      · rw [if_pos hmem, if_pos (List.mem_cons_of_mem _ hmem)]
      · rw [if_neg hmem, if_neg (List.not_mem_cons_of_ne_of_not_mem (Ne.symm halike) hmem),
          List.cons_append]

/-- The file that is placed is found under its path; under other paths the same is found as before. -/
theorem find?_place (file : GeneratedFile) (fs : List GeneratedFile) (p : Path) :
    (place file fs).find? (fun f => f.path.alike p) =
      if file.path.alike p then some file else fs.find? fun f => f.path.alike p := by
  induction fs with
  | nil => cases hfile : file.path.alike p <;> simp [place, hfile]
  | cons g fs ih =>
    rw [place]
    by_cases halike : g.path.alike file.path = true
    · have hsame : g.path.alike p = file.path.alike p := by
        rw [Path.alike, Path.alike, beq_iff_eq.mp halike]
      rw [if_pos halike, List.find?_cons, List.find?_cons, hsame]
      cases file.path.alike p
      · rfl
      · rfl
    · rw [if_neg halike, List.find?_cons, List.find?_cons, ih]
      cases hg : g.path.alike p with
      | false => rfl
      | true =>
        have hfile : ¬file.path.alike p = true := fun hfile =>
          halike (beq_iff_eq.mpr ((beq_iff_eq.mp hg).trans (beq_iff_eq.mp hfile).symm))
        exact (if_neg hfile).symm

/-- The tree with files added one after the other. -/
def addAll (t : FileTree) (files : List GeneratedFile) : FileTree :=
  files.foldl (fun t f => t.add f.path f.content f.description) t

/-- The tree of given files is what adding them makes of the empty tree. -/
theorem addAll_eq_ofList (files : List GeneratedFile) : addAll {} files = ofList files := by
  induction files using List.reverseRecOn with
  | nil => rfl
  | append_singleton files f ih =>
    have hfiles : addAll {} (files ++ [f]) = ⟨place f (addAll {} files).files⟩ := by
      rw [addAll, List.foldl_concat]
      rfl
    rw [hfiles, ih, ← files_ofList_concat]

variable (calls : List GeneratedFile)

/-- The paths of a tree are in the order in which they were first added. -/
theorem pathsOf_ofList : pathsOf (ofList calls).files = (pathsOf calls).eraseDups := by
  induction calls using List.reverseRecOn with
  | nil => rfl
  | append_singleton calls f ih =>
    have hcalls : pathsOf (calls ++ [f]) = pathsOf calls ++ [f.path.components] := List.map_append
    simp only [files_ofList_concat, pathsOf_place, ih, hcalls, eraseDups_concat, List.mem_eraseDups]

/-- A path leads to the file that was added last under it. -/
theorem get?_ofList (p : Path) :
    (ofList calls).get? p = calls.reverse.find? fun f => f.path.alike p := by
  induction calls using List.reverseRecOn with
  | nil => rfl
  | append_singleton calls f ih =>
    rw [get?, files_ofList_concat, find?_place, List.reverse_concat, List.find?_cons, ← ih]
    cases f.path.alike p
    · rfl
    · rfl

/-- A tree that files were added to one after the other has each path once, in the order of the first
additions; a path leads to the file that was added last under it, as that file spells it. Paths that
differ in empty segments and dots between slashes are one path, and a leading dot makes another. -/
theorem addAll_keeps :
    ((addAll {} calls).paths.Pairwise fun p q => p.alike q = false) ∧
      (addAll {} calls).paths.map Path.components =
        (calls.map fun f => f.path.components).eraseDups ∧
      (addAll {} calls).size = (calls.map fun f => f.path.components).toFinset.card ∧
      (∀ p, (addAll {} calls).get? p = calls.reverse.find? fun f => f.path.alike p) ∧
      ∀ a b, (Path.ofText (a ++ "//" ++ b)).alike (.ofText (a ++ "/" ++ b)) = true ∧
        (Path.ofText (a ++ "/./" ++ b)).alike (.ofText (a ++ "/" ++ b)) = true ∧
        ((Path.ofText ("./" ++ a)).alike (.ofText a) = true ↔ (Path.ofText a).first = ".") := by
  have hapart := apart_ofList calls
  have hpaths : (ofList calls).paths.map Path.components = (pathsOf calls).eraseDups := by
    rw [← pathsOf_ofList, paths, List.map_map]
    rfl
  rw [addAll_eq_ofList]
  refine ⟨?_, hpaths, ?_, get?_ofList calls, fun a b => ⟨?_, ?_, Path.alike_here_iff a⟩⟩
  · exact List.pairwise_map.mpr (hapart.imp fun hne => beq_eq_false_iff_ne.mpr hne)
  · have hnodup : (pathsOf calls).eraseDups.Nodup := by
      rw [← pathsOf_ofList]
      exact List.pairwise_map.mpr hapart
    have hsame : (pathsOf calls).eraseDups.toFinset = (pathsOf calls).toFinset := by
      ext components
      simp only [List.mem_toFinset, List.mem_eraseDups]
    calc (ofList calls).size
        = (pathsOf calls).eraseDups.length := by rw [← hpaths, List.length_map, paths, List.length_map]; rfl
      _ = (pathsOf calls).eraseDups.toFinset.card := (List.toFinset_card_of_nodup hnodup).symm
      _ = (pathsOf calls).toFinset.card := by rw [hsame]
  · have hspelled : a ++ "//" ++ b = a ++ "/" ++ ("" ++ "/" ++ b) :=
      String.toList_injective (by simp)
    rw [hspelled]
    exact Path.alike_of_idle (by decide) (by decide) a b
  · have hspelled : a ++ "/./" ++ b = a ++ "/" ++ ("." ++ "/" ++ b) :=
      String.toList_injective (by simp)
    rw [hspelled]
    exact Path.alike_of_idle (by decide) (by decide) a b

end FileTree

end AppScaffold
