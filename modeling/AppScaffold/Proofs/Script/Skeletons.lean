import AppScaffold.Proofs.Project.PlanFiles
import AppScaffold.Proofs.Script.Specifiers

/-!
# The specifiers of skeletons

A skeleton names other modules in its first lines, and nowhere else. Which modules these are is read
off the skeleton; the names of artifacts that stand in other lines hold no quotes, so that they cannot
be taken for specifiers.
-/

namespace AppScaffold.Script

/-- A text without quotes and line ends. -/
def IsQuiet (s : String) : Prop := ∀ c ∈ s.toList, c ≠ '\x27' ∧ c ≠ '\n'

-- Named: a search for an instance may come upon one that goes through all characters there are.
instance : DecidablePred IsQuiet := fun s => List.decidableBAll _ s.toList

/-- Quiet texts stay quiet when they are joined. -/
@[simp] theorem isQuiet_append (s t : String) : IsQuiet (s ++ t) ↔ IsQuiet s ∧ IsQuiet t := by
  simp only [IsQuiet, String.toList_append, List.mem_append, or_imp, forall_and]
  tauto

/-- The characters of the line that exports a name. -/
theorem toList_exportDefault (name : String) : (Skeleton.exportDefault name).toList =
    "export default ".toList ++ (name.toList ++ [';']) := by
  -- To make an equation of the definition, Lean would compare the texts octet by octet.
  delta Skeleton.exportDefault
  rw [String.toList_append, String.toList_append, List.append_assoc]
  rfl

namespace IsQuiet

variable {s : String}

/-- A written text is quiet if its characters are. -/
theorem of_chars {cs : List Char} (h : (cs.all fun c => c != '\x27' && c != '\n') = true) :
    IsQuiet (String.ofList cs) := by
  intro c hc
  rw [String.toList_ofList] at hc
  simpa using List.all_eq_true.mp h c hc

/-- The line that exports a quiet name is quiet. -/
theorem exportDefault (h : IsQuiet s) : IsQuiet (Skeleton.exportDefault s) := by
  delta Skeleton.exportDefault
  rw [isQuiet_append, isQuiet_append]
  exact ⟨⟨.of_chars rfl, h⟩, .of_chars rfl⟩

/-- There is no quote in a quiet text. -/
theorem notMem_quote (h : IsQuiet s) : '\x27' ∉ s.toList := fun hmem => (h _ hmem).1 rfl

/-- There is no line end in a quiet text. -/
theorem notMem_end (h : IsQuiet s) : '\n' ∉ s.toList := fun hmem => (h _ hmem).2 rfl

/-- Identifiers are quiet. -/
theorem of_isIdentifier (h : Name.isIdentifier s = true) : IsQuiet s := by
  intro c hc
  have htail := isIdentifierTail_of_mem h hc
  constructor
  · rintro rfl
    exact absurd htail (by decide)
  · rintro rfl
    exact absurd htail (by decide)

/-- Titles of identifiers are quiet. -/
theorem title (h : Name.isIdentifier s = true) : IsQuiet (Name.title s) := by
  intro c hc
  rcases isIdentifierTail_of_mem_apply h _ hc with htail | ⟨-, rfl⟩
  · constructor
    · rintro rfl
      exact absurd htail (by decide)
    · rintro rfl
      exact absurd htail (by decide)
  · decide

/-- The characters of a base address are those that were given, and those of the scheme. -/
theorem normal (h : IsQuiet s) : IsQuiet (Address.normal s) := by
  have hchars : ∀ c ∈ Address.withoutFinalSlashes (Text.trimChars s.toList), c ∈ s.toList := by
    intro c hc
    rw [Address.withoutFinalSlashes, List.mem_reverse] at hc
    have htrim := (List.dropWhile_sublist _).mem hc
    rw [List.mem_reverse, Text.trimChars, Text.trimEnd, List.mem_reverse] at htrim
    have hfront := (List.dropWhile_sublist _).mem htrim
    rw [List.mem_reverse] at hfront
    exact (List.dropWhile_sublist _).mem hfront
  have hquiet : IsQuiet (String.ofList (Address.withoutFinalSlashes (Text.trimChars s.toList))) := by
    intro c hc
    rw [String.toList_ofList] at hc
    exact h c (hchars c hc)
  rw [Address.normal]
  split_ifs
  · exact hquiet
  · exact (isQuiet_append _ _).mpr ⟨.of_chars rfl, hquiet⟩

/-- An answer that is a base address is quiet. -/
theorem of_baseUrl {raw url : String} (h : Answer.baseUrl raw Address.proposed = .ok url) :
    IsQuiet url := by
  unfold Answer.baseUrl at h
  dsimp only at h
  split_ifs at h with hempty hblank hquote
  · obtain rfl := Except.ok.inj h
    exact .of_chars rfl
  · obtain rfl := Except.ok.inj h
    intro c hc
    constructor
    · rintro rfl
      exact hquote (List.any_eq_true.mpr ⟨_, hc, by decide⟩)
    · rintro rfl
      exact hblank (List.any_eq_true.mpr ⟨_, hc, by decide⟩)

end IsQuiet

/-- Lines of a script with the specifiers that stand in them. -/
structure Names (lines specifiers : List String) : Prop where
  /-- The specifiers are found in the lines. -/
  found : lines.filterMap specifierOf = specifiers
  /-- Each line is one line. -/
  ends : ∀ line ∈ lines, '\n' ∉ line.toList

namespace Names

variable {lines lines' specifiers specifiers' : List String}

/-- The specifiers of the lines are those of their text. -/
theorem specifiers_text (h : Names lines specifiers) :
    Script.specifiers (Skeleton.text lines) = specifiers := by
  have hend : [""].filterMap specifierOf = [] := rfl
  rw [Script.specifiers, split_text h.ends, List.filterMap_append, h.found, hend, List.append_nil]

/-- Lines follow lines. -/
theorem append (h : Names lines specifiers) (h' : Names lines' specifiers') :
    Names (lines ++ lines') (specifiers ++ specifiers') := by
  refine ⟨?_, fun line hline => ?_⟩
  · rw [List.filterMap_append, h.found, h'.found]
  · exact (List.mem_append.mp hline).elim (h.ends line) (h'.ends line)

/-- Quiet lines have no specifiers. -/
theorem of_quiet (h : ∀ line ∈ lines, IsQuiet line) : Names lines [] := by
  refine ⟨?_, fun line hline => (h line hline).notMem_end⟩
  rw [List.filterMap_eq_nil_iff]
  exact fun line hline => specifierOf_of_notMem (h line hline).notMem_quote

/-- Quiet lines that follow do not matter. -/
theorem append_quiet (h : Names lines specifiers) (hquiet : ∀ line ∈ lines', IsQuiet line) :
    Names (lines ++ lines') specifiers :=
  List.append_nil specifiers ▸ h.append (of_quiet hquiet)

/-- A quoted text in a line is no specifier unless it stands after `from`. -/
theorem of_quoted {before quoted after : String} (hbefore : IsQuiet before)
    (hquoted : IsQuiet quoted) (hafter : IsQuiet after)
    (hfrom : "from ".toList.isSuffixOf before.toList = false) :
    Names [before ++ "'" ++ quoted ++ "'" ++ after] [] := by
  constructor
  · rw [List.filterMap_cons_none]
    · rfl
    · rw [specifierOf_quoted hbefore.notMem_quote hquoted.notMem_quote, hfrom]
      rfl
  · intro line hline
    rw [List.mem_singleton.mp hline]
    simp [hbefore.notMem_end, hquoted.notMem_end, hafter.notMem_end]

/-- An import has the specifier of its module. -/
theorem importDefault {names specifier : String} (hnames : IsQuiet names)
    (hspecifier : IsQuiet specifier) : Names [Skeleton.importDefault names specifier] [specifier] := by
  constructor
  · rw [List.filterMap_cons_some
      (specifierOf_importDefault hnames.notMem_quote hspecifier.notMem_quote)]
    rfl
  · intro line hline
    rw [List.mem_singleton.mp hline, Skeleton.importDefault]
    simp [hnames.notMem_end, hspecifier.notMem_end]

/-- So has an import of names in braces. -/
theorem importNamed {names specifier : String} (hnames : IsQuiet names)
    (hspecifier : IsQuiet specifier) : Names [Skeleton.importNamed names specifier] [specifier] := by
  refine importDefault ?_ hspecifier
  rw [Skeleton.braced, isQuiet_append, isQuiet_append]
  exact ⟨⟨.of_chars rfl, hnames⟩, .of_chars rfl⟩

end Names

/-- A navigator names the list of its screens. -/
theorem names_navigator {name screens specifier : String} (hname : IsQuiet name)
    (hscreens : IsQuiet screens) (hspecifier : IsQuiet specifier) :
    Names (Skeleton.navigator name screens specifier)
      ["react", "@react-navigation/stack", specifier] := by
  refine (Names.importDefault (.of_chars rfl) (.of_chars rfl)).append
    ((Names.importNamed (.of_chars rfl) (.of_chars rfl)).append
      ((Names.importNamed hscreens hspecifier).append_quiet ?_))
  simp only [List.forall_mem_cons, List.not_mem_nil, false_imp_iff, implies_true, Skeleton.prop,
    isQuiet_append, hname, hname.exportDefault, hscreens, and_true]
  and_intros
  all_goals exact .of_chars rfl

/-- The container names its navigators. -/
theorem names_mainNavigation (login : Bool) :
    Names (Skeleton.mainNavigation login) (["react", "@react-navigation/native", "./AppNavigation"] ++
      if login then ["./LoginNavigation"] else []) := by
  have hfirst : Names [Skeleton.importDefault "React" "react",
      Skeleton.importNamed "NavigationContainer" "@react-navigation/native", "",
      Skeleton.importDefault "AppNavigation" "./AppNavigation"]
      ["react", "@react-navigation/native", "./AppNavigation"] :=
    (Names.importDefault (.of_chars rfl) (.of_chars rfl)).append
      ((Names.importNamed (.of_chars rfl) (.of_chars rfl)).append
        ((Names.of_quiet (List.forall_mem_singleton.mpr (.of_chars rfl))).append
          (Names.importDefault (.of_chars rfl) (.of_chars rfl))))
  have hlogin : Names (if login then [Skeleton.importDefault "LoginNavigation" "./LoginNavigation"]
      else []) (if login then ["./LoginNavigation"] else []) := by
    cases login with
    | false => exact Names.of_quiet (List.forall_mem_nil _)
    | true => exact Names.importDefault (.of_chars rfl) (.of_chars rfl)
  rw [Skeleton.mainNavigation, List.append_assoc, List.append_assoc]
  refine (hfirst.append hlogin).append_quiet ?_
  cases login with
  | false =>
    simp only [Bool.false_eq_true, if_false, List.nil_append, List.cons_append, List.forall_mem_cons,
      List.not_mem_nil, false_imp_iff, implies_true, and_true]
    and_intros
    all_goals exact .of_chars rfl
  | true =>
    simp only [if_true, List.nil_append, List.cons_append, List.forall_mem_cons, List.not_mem_nil,
      false_imp_iff, implies_true, and_true]
    and_intros
    all_goals exact .of_chars rfl

/-- A screen names its style sheet. -/
theorem names_screen {name title : String} (hname : IsQuiet name) (htitle : IsQuiet title) :
    Names (Skeleton.screen name title)
      ["react", "react-native", "@react-navigation/native", "./" ++ name ++ ".style"] := by
  have hstyles : IsQuiet ("./" ++ name ++ ".style") := by
    rw [isQuiet_append, isQuiet_append]
    exact ⟨⟨.of_chars rfl, hname⟩, .of_chars rfl⟩
  refine (Names.importDefault (.of_chars rfl) (.of_chars rfl)).append
    ((Names.importNamed (.of_chars rfl) (.of_chars rfl)).append
      ((Names.importNamed (.of_chars rfl) (.of_chars rfl)).append
        ((Names.importNamed (.of_chars rfl) hstyles).append_quiet ?_)))
  simp only [List.forall_mem_cons, List.not_mem_nil, false_imp_iff, implies_true, Skeleton.prop,
    isQuiet_append, hname, hname.exportDefault, htitle, and_true]
  and_intros
  all_goals exact .of_chars rfl

/-- A style sheet names nothing of its own. -/
theorem names_screenStyles : Names Skeleton.screenStyles ["react-native"] := by
  have hrule : ∀ property value : String, IsQuiet property → IsQuiet value →
      "from ".toList.isSuffixOf property.toList = false →
      Names [property ++ "'" ++ value ++ "'" ++ ","] [] :=
    fun property value hproperty hvalue => Names.of_quoted hproperty hvalue (.of_chars rfl)
  have hcontainer : Names ["        justifyContent: 'center',", "        alignItems: 'center',",
      "        backgroundColor: '#F5FCFF',"] [] :=
    (hrule "        justifyContent: " "center" (.of_chars rfl) (.of_chars rfl) (by decide)).append
      ((hrule "        alignItems: " "center" (.of_chars rfl) (.of_chars rfl) (by decide)).append
        (hrule "        backgroundColor: " "#F5FCFF" (.of_chars rfl) (.of_chars rfl) (by decide)))
  have htext : Names ["        textAlign: 'center',"] [] :=
    hrule "        textAlign: " "center" (.of_chars rfl) (.of_chars rfl) (by decide)
  have hopening : ∀ line ∈ ["", "export const styles = StyleSheet.create(\x7b", "    container: \x7b",
      "        flex: 1,"], IsQuiet line := by
    simp only [List.forall_mem_cons, List.not_mem_nil, false_imp_iff, implies_true, and_true]
    exact ⟨.of_chars rfl, .of_chars rfl, .of_chars rfl, .of_chars rfl⟩
  have hbetween : ∀ line ∈ ["    \x7d,", "    text: \x7b", "        fontSize: 20,"], IsQuiet line := by
    simp only [List.forall_mem_cons, List.not_mem_nil, false_imp_iff, implies_true, and_true]
    exact ⟨.of_chars rfl, .of_chars rfl, .of_chars rfl⟩
  have hclosing : ∀ line ∈ ["        margin: 10,", "    \x7d,", "\x7d);"], IsQuiet line := by
    simp only [List.forall_mem_cons, List.not_mem_nil, false_imp_iff, implies_true, and_true]
    exact ⟨.of_chars rfl, .of_chars rfl, .of_chars rfl⟩
  exact (Names.importNamed (.of_chars rfl) (.of_chars rfl)).append
    ((Names.of_quiet hopening).append (hcontainer.append ((Names.of_quiet hbetween).append
      (htext.append_quiet hclosing))))

/-- An index names the component beside it. -/
theorem names_index {name : String} (hname : IsQuiet name) :
    Names (Skeleton.index name) ["./" ++ name] := by
  have hspecifier : IsQuiet ("./" ++ name) := (isQuiet_append _ _).mpr ⟨.of_chars rfl, hname⟩
  have hline : "export " ++ Skeleton.braced "default" ++ " from './" ++ name ++ "';" =
      "export " ++ Skeleton.braced "default" ++ " " ++ "from '" ++ ("./" ++ name) ++ "'" ++ ";" := by
    have hfrom : " from './" = " " ++ "from '" ++ "./" := by decide
    have hend : "';" = "'" ++ ";" := by decide
    rw [hfrom, hend]
    simp only [String.append_assoc]
  constructor
  · rw [Skeleton.index, hline, List.filterMap_cons_some
      (specifierOf_from (by decide) hspecifier.notMem_quote ";")]
    rfl
  · intro line hl
    rw [List.mem_singleton.mp hl]
    simp [Skeleton.braced, hname.notMem_end]

/-- A list of screens names their directories. -/
theorem names_screenList {list : String} {screens : List String} (hlist : IsQuiet list)
    (hscreens : ∀ name ∈ screens, IsQuiet name) :
    Names (Skeleton.screenList list screens) (screens.map ("../../Screens/" ++ ·)) := by
  have himports : Names (screens.map fun name => Skeleton.importDefault name ("../../Screens/" ++ name))
      (screens.map ("../../Screens/" ++ ·)) := by
    induction screens with
    | nil => exact Names.of_quiet (List.forall_mem_nil _)
    | cons name screens ih =>
      have hname := hscreens name List.mem_cons_self
      exact (Names.importDefault hname ((isQuiet_append _ _).mpr ⟨.of_chars rfl, hname⟩)).append
        (ih fun n hn => hscreens n (List.mem_cons_of_mem _ hn))
  have hentries : ∀ line ∈ screens.flatMap Skeleton.screenEntry, IsQuiet line := by
    intro line hline
    obtain ⟨name, hname, hentry⟩ := List.mem_flatMap.mp hline
    have hquiet : ∀ line ∈ Skeleton.screenEntry name, IsQuiet line := by
      simp only [Skeleton.screenEntry, List.forall_mem_cons, List.not_mem_nil, false_imp_iff,
        implies_true, Skeleton.braced, isQuiet_append, hscreens name hname, and_true]
      and_intros
      all_goals exact .of_chars rfl
    exact hquiet line hentry
  rw [Skeleton.screenList, List.append_assoc]
  refine himports.append_quiet ?_
  simp only [List.cons_append, List.forall_mem_cons, List.forall_mem_append, List.not_mem_nil,
    false_imp_iff, implies_true, isQuiet_append, hlist, and_true]
  and_intros
  · exact .of_chars rfl
  · exact .of_chars rfl
  · exact .of_chars rfl
  · exact hentries
  · exact .of_chars rfl

/-- A base address names nothing. -/
theorem names_baseAddress {url : String} (h : IsQuiet url) : Names (Skeleton.baseAddress url) [] := by
  have hline : "export const BASE_URL = '" ++ url ++ "';" =
      "export const BASE_URL = " ++ "'" ++ url ++ "'" ++ ";" := by
    have hstart : "export const BASE_URL = '" = "export const BASE_URL = " ++ "'" := by decide
    have hend : "';" = "'" ++ ";" := by decide
    rw [hstart, hend]
    simp only [String.append_assoc]
  rw [Skeleton.baseAddress, hline]
  exact Names.of_quoted (.of_chars rfl) h (.of_chars rfl) (by decide)

end AppScaffold.Script
