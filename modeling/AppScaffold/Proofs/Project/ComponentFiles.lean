import AppScaffold.Proofs.Project.TemplatePaths

/-!
# The files of a component

A screen or a component is made of three files in a directory of its own: the component, its style
sheet and an index. The extensions are free, and a file takes the place of an earlier one with the
same name. Two names are the same in two cases only: if components have the extension of style
sheets, the style sheet takes the place of the component; if all files have one extension, the index
takes the place of a component that is itself called `index`.
-/

namespace AppScaffold

namespace Template

variable {e : Extensions} {a : Archetype} {p : Parameters} {name kind : String}
  {component styles : List String} {tree : FileTree}

/-- The file of the component. -/
def componentFile (e : Extensions) (name kind : String) (component : List String) : GeneratedFile :=
  ⟨⟨name, [name ++ "." ++ e.component]⟩, Skeleton.text component, name ++ " " ++ kind⟩

/-- The file of its style sheet. -/
def styleFile (e : Extensions) (name : String) (styles : List String) : GeneratedFile :=
  ⟨⟨name, [name ++ ".style." ++ e.script]⟩, Skeleton.text styles, name ++ " styles"⟩

/-- The file of its index. -/
def indexFile (e : Extensions) (name : String) : GeneratedFile :=
  ⟨⟨name, ["index." ++ e.script]⟩, "export \x7b default \x7d from './" ++ name ++ "';\n",
    name ++ " index"⟩

/-- The index is one line. -/
theorem text_index (name : String) : Skeleton.text (Skeleton.index name) =
    "export \x7b default \x7d from './" ++ name ++ "';\n" := by
  have hfront : "export " ++ Skeleton.braced "default" ++ " from './" =
      "export \x7b default \x7d from './" := by decide
  rw [Skeleton.index, Skeleton.text, Skeleton.text, String.append_empty, hfront,
    String.append_assoc]
  rfl

/-- What a text without dots and what follows the first dot behind it are told apart. -/
theorem append_dot_inj {s t x y : String} (hs : '.' ∉ s.toList) (ht : '.' ∉ t.toList) :
    s ++ "." ++ x = t ++ "." ++ y ↔ s = t ∧ x = y := by
  have hlist : ∀ u v : String, (u ++ "." ++ v).toList = u.toList ++ '.' :: v.toList := by
    intro u v
    rw [String.toList_append, String.toList_append, List.append_assoc]
    rfl
  refine ⟨fun h => ?_, fun ⟨h, h'⟩ => by rw [h, h']⟩
  have hchars := congrArg String.toList h
  rw [hlist, hlist] at hchars
  have hpieces := congrArg (Text.splitChars '.') hchars
  rw [Text.splitChars_append hs, Text.splitChars_append ht] at hpieces
  have hst := (List.cons.inj hpieces).1
  rw [hst, List.append_cancel_left_eq, List.cons.injEq] at hchars
  exact ⟨String.toList_injective hst, String.toList_injective hchars.2⟩

/-- Files with names of their own are alike only under one name. -/
theorem alike_iff {f g : String} (hname : Name.isIdentifier name = true) (hf : IsSegment f)
    (hg : IsSegment g) : (⟨name, [f]⟩ : Path).alike ⟨name, [g]⟩ = true ↔ f = g := by
  have hcomponents : ∀ t, IsSegment t →
      (⟨name, [t]⟩ : Path).components = [.name name, .name t] := by
    intro t ht
    rw [Path.components_of_isSegment (p := ⟨name, [t]⟩) (isSegment_of_isIdentifier hname).1,
      Path.filterMap_of_isSegment (List.forall_mem_singleton.mpr ht), List.map_singleton]
  rw [Path.alike, hcomponents f hf, hcomponents g hg]
  simp

/-- The name of the style sheet goes on behind a dot. -/
theorem style_eq (name ending : String) :
    name ++ ".style." ++ ending = name ++ "." ++ ("style." ++ ending) := by
  rw [String.append_assoc, String.append_assoc]
  rfl

/-- The component and its style sheet have one name if the extension says so. -/
theorem component_eq_style_iff (hname : Name.isIdentifier name = true) :
    name ++ "." ++ e.component = name ++ ".style." ++ e.script ↔
      e.component = "style." ++ e.script := by
  have hdot := notMem_dot_of_isIdentifier hname
  rw [style_eq, append_dot_inj hdot hdot, eq_self, true_and]

/-- The component and the index have one name if they are called alike and all extensions are one. -/
theorem component_eq_index_iff (hname : Name.isIdentifier name = true) :
    name ++ "." ++ e.component = "index." ++ e.script ↔
      name = "index" ∧ e.component = e.script :=
  append_dot_inj (t := "index") (notMem_dot_of_isIdentifier hname) (by decide)

/-- The style sheet and the index never have one name. -/
theorem style_ne_index (hname : Name.isIdentifier name = true) :
    name ++ ".style." ++ e.script ≠ "index." ++ e.script := by
  rw [style_eq]
  intro heq
  have hlength := congrArg String.length
    ((append_dot_inj (t := "index") (notMem_dot_of_isIdentifier hname) (by decide)).mp heq).2
  rw [String.length_append] at hlength
  exact absurd hlength (by simp)

/-- The files that are left of a component, its style sheet and its index, put in in this order. -/
theorem files_componentTree_eq (hname : Name.isIdentifier name = true)
    (hcomponent : '/' ∉ e.component.toList) (hscript : '/' ∉ e.script.toList)
    (kind : String) (component styles : List String) :
    (componentTree e name kind component styles).files =
      if e.component = "style." ++ e.script then [styleFile e name styles, indexFile e name]
      else if name = "index" ∧ e.component = e.script then
        [indexFile e name, styleFile e name styles]
      else [componentFile e name kind component, styleFile e name styles, indexFile e name] := by
  obtain ⟨c, hc, htail⟩ := exists_mem_of_isIdentifier hname
  have hslash := (notMem_of_isIdentifier hname).1
  have hdot := (ne_of_isIdentifierTail htail).1
  have hcsegment : IsSegment (name ++ "." ++ e.component) := isSegment_of_mem (c := c) (by simp [hc]) hdot
  have hssegment : IsSegment (name ++ ".style." ++ e.script) :=
    isSegment_of_mem (c := c) (by simp [hc]) hdot
  have hisegment : IsSegment ("index." ++ e.script) :=
    isSegment_of_mem (c := 'i') (by simp) (by decide)
  have hcwithin : within name (e.componentFile name) = ⟨name, [name ++ "." ++ e.component]⟩ :=
    within_identifier hname (by simp [Extensions.componentFile, hslash, hcomponent])
  have hswithin : within name (e.scriptFile (name ++ ".style")) =
      ⟨name, [name ++ ".style." ++ e.script]⟩ := by
    rw [within_identifier hname (by simp [Extensions.scriptFile, hslash, hscript])]
    simp [Extensions.scriptFile, String.append_assoc]
  have hiwithin : within name (e.scriptFile "index") = ⟨name, ["index." ++ e.script]⟩ :=
    within_identifier hname (by simp [Extensions.scriptFile, hscript])
  rw [componentTree, hcwithin, hswithin, hiwithin, text_index]
  change (FileTree.ofList [componentFile e name kind component, styleFile e name styles,
    indexFile e name]).files = _
  have hcs : (componentFile e name kind component).path.alike (styleFile e name styles).path = true ↔
      e.component = "style." ++ e.script :=
    (alike_iff hname hcsegment hssegment).trans (component_eq_style_iff hname)
  have hci : (componentFile e name kind component).path.alike (indexFile e name).path = true ↔
      name = "index" ∧ e.component = e.script :=
    (alike_iff hname hcsegment hisegment).trans (component_eq_index_iff hname)
  have hsi : (styleFile e name styles).path.alike (indexFile e name).path = false :=
    Bool.eq_false_iff.mpr fun h => style_ne_index hname ((alike_iff hname hssegment hisegment).mp h)
  rw [FileTree.ofList, List.foldl_cons, List.foldl_cons, List.foldl_cons, List.foldl_nil,
    FileTree.place, FileTree.place]
  by_cases hstyle : e.component = "style." ++ e.script
  · rw [if_pos (hcs.mpr hstyle), if_pos hstyle]
    simp only [FileTree.place, hsi]
    rfl
  · rw [if_neg (mt hcs.mp hstyle), if_neg hstyle]
    by_cases hown : name = "index" ∧ e.component = e.script
    · rw [if_pos hown]
      simp only [FileTree.place, hci.mpr hown, if_true]
    · rw [if_neg hown]
      simp only [FileTree.place, hsi, mt hci.mp hown]
      rfl

/-- The last line of a component makes it the default export. -/
theorem Asks.getLast? (h : Asks p name a kind component styles) :
    component.getLast? = some (Skeleton.exportDefault name) := by
  cases h with
  | screen | loginScreen => rfl
  | component => rw [Skeleton.component, List.getLast?_append]; rfl

end Template

/-- A screen or a component is made of a component that ends with its default export, a style sheet
and an index that passes the component on, in a directory that is called after it. One file takes the
place of another in two cases only, and then the component is lost: the style sheet has its name if
components have the extension of style sheets, and the index has its name if the component is called
`index` and all files have one extension. -/
theorem Template.files_of_instantiate {e : Extensions} {a : Archetype} {p : Parameters}
    {tree : FileTree} (ha : a = .screen ∨ a = .loginScreen ∨ a = .component)
    (hcomponent : '/' ∉ e.component.toList) (hscript : '/' ∉ e.script.toList)
    (h : instantiate e a p = .ok tree) :
    ∃ name kind component styles, p.text "name" = some name ∧ Name.isIdentifier name = true ∧
      Asks p name a kind component styles ∧
      component.getLast? = some (Skeleton.exportDefault name) ∧
      tree.files =
        if e.component = "style." ++ e.script then [styleFile e name styles, indexFile e name]
        else if name = "index" ∧ e.component = e.script then
          [indexFile e name, styleFile e name styles]
        else [componentFile e name kind component, styleFile e name styles, indexFile e name] := by
  obtain ⟨name, kind, component, styles, hgiven, hname, hasks, rfl⟩ :=
    exists_of_instantiate_component ha h
  exact ⟨name, kind, component, styles, hgiven, hname, hasks, hasks.getLast?,
    files_componentTree_eq hname hcomponent hscript kind component styles⟩

/-- A screen called `index`. -/
def Parameters.indexScreen : Parameters := ⟨[("name", "index")]⟩

/-- With one extension for all files the component of such a screen is lost, and the index passes on
itself. -/
theorem Template.files_of_instantiate_index :
    ∃ tree, instantiate ⟨"js", "js"⟩ .screen .indexScreen = .ok tree ∧
      '/' ∉ (Extensions.mk "js" "js").component.toList ∧
      '/' ∉ (Extensions.mk "js" "js").script.toList ∧
      tree.files = [⟨⟨"index", ["index.js"]⟩, "export \x7b default \x7d from './index';\n", "index index"⟩,
        ⟨⟨"index", ["index.style.js"]⟩, Skeleton.text Skeleton.screenStyles, "index styles"⟩] := by
  have hgiven : Parameters.indexScreen.text "name" = some "index" := by decide
  have h := instantiate_screen (e := ⟨"js", "js"⟩) (.inl rfl) hgiven (by decide)
  have hcomponent : '/' ∉ (Extensions.mk "js" "js").component.toList := by decide
  have hscript : '/' ∉ (Extensions.mk "js" "js").script.toList := by decide
  obtain ⟨name, kind, component, styles, hname, -, hasks, -, hfiles⟩ :=
    files_of_instantiate (.inl rfl) hcomponent hscript h
  obtain rfl := Option.some.inj (hgiven.symm.trans hname)
  obtain _ | _ | _ := hasks
  rw [if_neg (by decide), if_pos (by decide)] at hfiles
  exact ⟨_, h, hcomponent, hscript, hfiles⟩

end AppScaffold
