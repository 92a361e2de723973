import AppScaffold.Proofs.Script.Slots
import Mathlib.Data.List.Basic
import Mathlib.Tactic.Common

/-!
# Names bound by a script

An import binds the names between `import` and `from`, and a constant those before its equals sign. At
the top level of a script a name can be bound once only. The names that the generated scripts bind are
fixed but for those that come from the name of the artifact.
-/

namespace AppScaffold

/-- The elements that a component imports. -/
def Variant.imported : Variant → List String
  | touchableOpacity => ["TouchableOpacity", "Text"]
  | modal => ["Modal", "View"]
  | v => [v.name]

namespace Script

/-- The words in a text: its runs of characters of identifiers. -/
def words (cs : List Char) : List String :=
  ((Text.splitChars ' ' (cs.map fun c => if Name.isIdentifierTail c then c else ' ')).filter
    fun word => !word.isEmpty).map String.ofList

/-- The names that a statement declares which begins with the words: those between `import` and `from`, or
those of a constant. -/
def declared : List String → List String
  | "import" :: names => names.dropLast
  | "const" :: names => names
  | "export" :: "const" :: names => names
  | _ => []

/-- The names that a line binds at the top level; the words in front of a quote or an equals sign tell. A
line that begins with a space is inside brackets. -/
def boundIn (line : String) : List String :=
  if line.toList.head? = some ' ' then []
  else declared (words (line.toList.takeWhile fun c => c != '=' && !isQuote c))

/-- The names that a script binds at the top level, in order. -/
def bindings (text : String) : List String := (Text.split '\n' text).flatMap boundIn

/-- A name is bound each time that it is declared. -/
example : bindings
      "import \x7b View, Text \x7d from 'a';\n\nconst View = () => (\n    const x = 1;\n);\n" =
    ["View", "Text", "View"] := by decide +kernel

/-- A character that is in no identifier parts words. -/
theorem words_append_cons {c : Char} (h : Name.isIdentifierTail c = false) (cs rest : List Char) :
    words (cs ++ c :: rest) = words cs ++ words rest := by
  rw [words, List.map_append, List.map_cons, h, if_neg (by decide), Text.splitChars_append_cons,
    List.filter_append, List.map_append]
  rfl

/-- The characters of an identifier are one word. -/
theorem words_of_name {name : String} (h : ∀ c ∈ name.toList, Name.isIdentifierTail c = true)
    (hne : name ≠ "") : words name.toList = [name] := by
  have hmap : name.toList.map (fun c => if Name.isIdentifierTail c then c else ' ') = name.toList := by
    conv_rhs => rw [← List.map_id name.toList]
    exact List.map_congr_left fun c hc => if_pos (h c hc)
  have hspace : ' ' ∉ name.toList := fun hmem => absurd (h _ hmem) (by decide)
  have hchars : name.toList.isEmpty = false := by simpa using hne
  rw [words, hmap, Text.splitChars_of_notMem hspace]
  simp [hchars]

/-- Nothing is quoted in the characters, and nothing is given a value. -/
def IsBare (cs : List Char) : Prop := ∀ c ∈ cs, c ≠ '=' ∧ isQuote c = false

instance : DecidablePred IsBare := fun _ => List.decidableBAll _ _

/-- Bare characters in a row are bare. -/
theorem IsBare.append {cs ds : List Char} (h : IsBare cs) (h' : IsBare ds) : IsBare (cs ++ ds) :=
  List.forall_mem_append.mpr ⟨h, h'⟩

/-- Identifiers are bare. -/
theorem isBare_of_tails {cs : List Char} (h : ∀ c ∈ cs, Name.isIdentifierTail c = true) :
    IsBare cs := by
  intro c hc
  obtain ⟨hplain, -, -, -, -, hequals⟩ := plain_of_isIdentifierTail (h c hc)
  rw [isPlain, Bool.and_eq_true, Bool.not_eq_true'] at hplain
  exact ⟨hequals, hplain.1⟩

/-- The words in front of a quote or an equals sign tell what a line binds. -/
theorem boundIn_eq {line : String} {front rest : List Char} {c : Char}
    (hline : line.toList = front ++ c :: rest) (hhead : ∃ d, front.head? = some d ∧ d ≠ ' ')
    (hfront : IsBare front) (hc : c = '=' ∨ isQuote c = true) :
    boundIn line = declared (words front) := by
  obtain ⟨d, hd, hne⟩ := hhead
  have hcut : (front ++ c :: rest).takeWhile (fun c => c != '=' && !isQuote c) = front := by
    rw [List.takeWhile_append_of_pos, List.takeWhile_cons_of_neg, List.append_nil]
    · rcases hc with rfl | hc
      · decide
      · simp [hc]
    · intro d hd
      simpa using hfront d hd
  rw [boundIn, hline, hcut, if_neg]
  rw [List.head?_append, hd]
  simpa using hne

/-- An import binds the names in it. -/
theorem boundIn_importDefault {names : String} (h : IsBare names.toList) (specifier : String) :
    boundIn (Skeleton.importDefault names specifier) = words names.toList := by
  have hline : (Skeleton.importDefault names specifier).toList =
      ("import".toList ++ ' ' :: (names.toList ++ ' ' :: ("from".toList ++ ' ' :: []))) ++
        '\x27' :: (specifier.toList ++ "';".toList) := by
    simp [Skeleton.importDefault]
  have hbare : IsBare ("import".toList ++ ' ' :: (names.toList ++ ' ' :: ("from".toList ++ ' ' :: []))) :=
    List.append_cons .. ▸ (show IsBare ("import".toList ++ [' ']) by decide).append
      (h.append (by decide))
  rw [boundIn_eq hline ⟨'i', rfl, by decide⟩ hbare (.inr (by decide)), words_append_cons (by decide),
    words_append_cons (by decide), words_append_cons (by decide)]
  change (words names.toList ++ ["from"]).dropLast = _
  rw [List.dropLast_concat]

/-- The import that every element file begins with binds its name. -/
theorem boundIn_react : boundIn (Skeleton.importDefault "React" "react") = ["React"] :=
  (boundIn_importDefault (by decide) _).trans (by decide)

/-- An import of names in braces binds these names. -/
theorem boundIn_importNamed {names : String} (h : IsBare names.toList) (specifier : String) :
    boundIn (Skeleton.importNamed names specifier) = words names.toList := by
  have hbraced : (Skeleton.braced names).toList =
      ['\x7b'] ++ ' ' :: (names.toList ++ ' ' :: ['\x7d']) := by
    simp [Skeleton.braced]
  have hbare : IsBare (Skeleton.braced names).toList := by
    rw [hbraced, List.append_cons]
    exact (show IsBare ['\x7b', ' '] by decide).append (h.append (by decide))
  rw [Skeleton.importNamed, boundIn_importDefault hbare, hbraced, words_append_cons (by decide),
    words_append_cons (by decide)]
  change words names.toList ++ [] = _
  rw [List.append_nil]

/-- The declaration of a constant binds its name. -/
theorem boundIn_const {line name : String} (rest : List Char)
    (hline : line.toList = "const".toList ++ ' ' :: (name.toList ++ ' ' :: '=' :: rest))
    (h : ∀ c ∈ name.toList, Name.isIdentifierTail c = true) (hne : name ≠ "") :
    boundIn line = [name] := by
  have hfront : line.toList = ("const".toList ++ ' ' :: (name.toList ++ [' '])) ++ '=' :: rest := by
    simp [hline]
  have hbare : IsBare ("const".toList ++ ' ' :: (name.toList ++ [' '])) :=
    List.append_cons .. ▸ (show IsBare ("const".toList ++ [' ']) by decide).append
      ((isBare_of_tails h).append (by decide))
  rw [boundIn_eq hfront ⟨'c', rfl, by decide⟩ hbare (.inl rfl), words_append_cons (by decide),
    words_append_cons (by decide), words_of_name h hne]
  rfl

/-- The declaration of an exported constant binds its name. -/
theorem boundIn_exportConst {line name : String} (rest : List Char)
    (hline : line.toList = "export const".toList ++ ' ' :: (name.toList ++ ' ' :: '=' :: rest))
    (h : ∀ c ∈ name.toList, Name.isIdentifierTail c = true) (hne : name ≠ "") :
    boundIn line = [name] := by
  have hfront : line.toList =
      ("export".toList ++ ' ' :: ("const".toList ++ ' ' :: (name.toList ++ [' ']))) ++ '=' :: rest := by
    simp [hline]
  have hbare : IsBare ("export".toList ++ ' ' :: ("const".toList ++ ' ' :: (name.toList ++ [' ']))) := by
    rw [List.append_cons "const".toList, ← List.cons_append, ← List.append_assoc]
    exact (show IsBare ("export".toList ++ ' ' :: ("const".toList ++ [' '])) by decide).append
      ((isBare_of_tails h).append (by decide))
  rw [boundIn_eq hfront ⟨'e', rfl, by decide⟩ hbare (.inl rfl), words_append_cons (by decide),
    words_append_cons (by decide), words_append_cons (by decide), words_of_name h hne]
  rfl

/-- The statement that makes a name the default export binds nothing. -/
theorem boundIn_exportDefault {name : String} (h : IsBare name.toList) :
    boundIn (Skeleton.exportDefault name) = [] := by
  have hline : (Skeleton.exportDefault name).toList =
      "export".toList ++ ' ' :: ("default".toList ++ ' ' :: (name.toList ++ [';'])) := by
    rw [toList_exportDefault]
    rfl
  have hbare : IsBare (Skeleton.exportDefault name).toList := by
    rw [hline, List.append_cons "default".toList, ← List.cons_append, ← List.append_assoc]
    exact (show IsBare ("export".toList ++ ' ' :: ("default".toList ++ [' '])) by decide).append
      (h.append (by decide))
  have hcut : (Skeleton.exportDefault name).toList.takeWhile (fun c => c != '=' && !isQuote c) =
      (Skeleton.exportDefault name).toList :=
    List.takeWhile_eq_self_iff.mpr fun c hc => by simpa using hbare c hc
  have hhead : ¬(Skeleton.exportDefault name).toList.head? = some ' ' := by
    rw [hline]
    exact (by decide : ¬some 'e' = some ' ')
  rw [boundIn, if_neg hhead, hcut, hline, words_append_cons (by decide),
    words_append_cons (by decide)]
  rfl

section Lines

variable {name : String}

/-- The names that lines bind are found in their text. -/
theorem bindings_text {lines : List String} (h : ∀ line ∈ lines, '\n' ∉ line.toList) :
    bindings (Skeleton.text lines) = lines.flatMap boundIn := by
  have hend : [""].flatMap boundIn = [] := by decide
  rw [bindings, split_text h, List.flatMap_append, hend, List.append_nil]

/-- Empty lines and those inside brackets bind nothing. -/
theorem flatMap_boundIn_eq_nil {lines : List String}
    (h : ∀ line ∈ lines, line = "" ∨ line.toList.head? = some ' ') : lines.flatMap boundIn = [] := by
  refine List.flatMap_eq_nil_iff.mpr fun line hline => ?_
  rcases h line hline with rfl | hspace
  · decide
  · rw [boundIn, if_pos hspace]

variable (hname : Name.isIdentifier name = true)

include hname

/-- The names that a screen binds. -/
theorem bindings_screen :
    bindings (Skeleton.text (Skeleton.screen name (Name.title name))) =
      ["React", "View", "Text", "TouchableOpacity", "useNavigation", "styles", name] := by
  have htails := fun c hc => isIdentifierTail_of_mem (c := c) hname hc
  have hne := (Template.notMem_of_isIdentifier hname).2
  have helements : boundIn (Skeleton.importNamed "View, Text, TouchableOpacity" "react-native") =
      ["View", "Text", "TouchableOpacity"] := (boundIn_importNamed (by decide) _).trans (by decide)
  have hnavigation : boundIn (Skeleton.importNamed "useNavigation" "@react-navigation/native") =
      ["useNavigation"] := (boundIn_importNamed (by decide) _).trans (by decide)
  have hstyles : boundIn (Skeleton.importStyles name) = ["styles"] :=
    (boundIn_importNamed (by decide) _).trans (by decide)
  have hconst : boundIn ("const " ++ name ++ " = () => \x7b") = [name] :=
    boundIn_const " () => \x7b".toList (by simp) htails hne
  have hinner : ["    const navigation = useNavigation();",
      "",
      "    return (",
      "        <View " ++ Skeleton.prop "style" "styles.container" ++ ">",
      "            <Text " ++ Skeleton.prop "style" "styles.text" ++ ">" ++ Name.title name ++
        " Screen</Text>",
      "            <TouchableOpacity " ++ Skeleton.prop "onPress" "() => navigation.goBack()" ++ ">",
      "                <Text>Go back</Text>",
      "            </TouchableOpacity>",
      "        </View>",
      "    );"].flatMap boundIn = [] := flatMap_boundIn_eq_nil (by simp [Skeleton.prop])
  have hend : ["\x7d;", ""].flatMap boundIn = [] := by decide
  have hdefault := boundIn_exportDefault (isBare_of_tails htails)
  rw [bindings_text (names_screen (.of_isIdentifier hname) (.title hname)).ends]
  simp only [Skeleton.screen, List.flatMap_cons, List.flatMap_nil] at hinner hend ⊢
  simp only [List.append_eq_nil_iff] at hinner hend
  simp [hinner, hend, boundIn_react, helements, hnavigation, hstyles, hconst, hdefault]

/-- The names that a component binds. -/
theorem bindings_component (v : Variant) {elements : List String}
    (helements : ∀ element ∈ elements, Name.isIdentifier element = true) :
    bindings (Skeleton.text (Skeleton.component v name elements)) =
      "React" :: v.imported ++ ["styles", name] := by
  have htails := fun c hc => isIdentifierTail_of_mem (c := c) hname hc
  have hne := (Template.notMem_of_isIdentifier hname).2
  have helement : boundIn (Skeleton.importNamed (Skeleton.importedElements v) "react-native") =
      v.imported := by
    cases v with
    | _ => decide +kernel
  have hstyles : boundIn (Skeleton.importStyles name) = ["styles"] :=
    (boundIn_importNamed (by decide) _).trans (by decide)
  have hconst : boundIn ("const " ++ name ++ " = (" ++ Skeleton.braced (Skeleton.properties v) ++
      ") => \x7b") = [name] :=
    boundIn_const (" (" ++ Skeleton.braced (Skeleton.properties v) ++ ") => \x7b").toList (by simp) htails
      hne
  have hopening : ["", "    return ("].flatMap boundIn = [] := by decide
  have hshown : (Skeleton.shown v elements).flatMap boundIn = [] := flatMap_boundIn_eq_nil
    fun line hline => .inr (Skeleton.quiet_shown v helements line hline).2
  have hend : ["    );", "\x7d;", ""].flatMap boundIn = [] := by decide
  have hdefault := boundIn_exportDefault (isBare_of_tails htails)
  rw [bindings_text (names_component v hname helements).ends]
  simp only [Skeleton.component, List.flatMap_append, List.flatMap_cons, List.flatMap_nil] at hopening hend ⊢
  simp only [List.append_eq_nil_iff] at hopening hend
  simp [hopening, hshown, hend, boundIn_react, helement, hstyles, hconst, hdefault]

end Lines

/-- An ending may follow what is made of the characters of identifiers. -/
theorem tails_append {slice ending : String} (h : ∀ c ∈ slice.toList, Name.isIdentifierTail c = true)
    (hending : ending.toList.all Name.isIdentifierTail = true) (hne : ending ≠ "") :
    (∀ c ∈ (slice ++ ending).toList, Name.isIdentifierTail c = true) ∧ slice ++ ending ≠ "" := by
  rw [String.toList_append, List.forall_mem_append]
  exact ⟨⟨h, List.all_eq_true.mp hending⟩, fun hnil => hne (String.append_eq_empty_iff.mp hnil).2⟩

/-- The names that a slice binds. -/
theorem bindings_reducer {slice : String} (h : ∀ c ∈ slice.toList, Name.isIdentifierTail c = true) :
    bindings (Skeleton.text (Skeleton.reducer slice)) =
      ["createSlice", slice ++ "Slice", "defaultReducer", slice ++ "Reducer"] := by
  obtain ⟨hslice, hslice'⟩ : (∀ c ∈ (slice ++ "Slice").toList, Name.isIdentifierTail c = true) ∧
      slice ++ "Slice" ≠ "" := tails_append h (by decide) (by decide)
  obtain ⟨hreducer, hreducer'⟩ : (∀ c ∈ (slice ++ "Reducer").toList, Name.isIdentifierTail c = true) ∧
      slice ++ "Reducer" ≠ "" := tails_append h (by decide) (by decide)
  have hends : ∀ line ∈ Skeleton.reducer slice, '\n' ∉ line.toList := by
    have hend : '\n' ∉ slice.toList := fun hmem => absurd (h _ hmem) (by decide)
    simp [Skeleton.reducer, Skeleton.importNamed, Skeleton.importDefault, Skeleton.braced, hend]
  have hcreate : boundIn (Skeleton.importNamed "createSlice" "@reduxjs/toolkit") = ["createSlice"] := by
    decide +kernel
  have hconst : boundIn ("const " ++ slice ++ "Slice = createSlice(\x7b") = [slice ++ "Slice"] :=
    boundIn_const " createSlice(\x7b".toList (by simp) hslice hslice'
  have hactions : boundIn ("export const " ++ Skeleton.braced "defaultReducer" ++ " = " ++ slice ++
      "Slice.actions;") = ["defaultReducer"] := by
    have hline : ("export const " ++ Skeleton.braced "defaultReducer" ++ " = " ++ slice ++
        "Slice.actions;").toList = "export const \x7b defaultReducer \x7d ".toList ++
          '=' :: (" " ++ slice ++ "Slice.actions;").toList := by
      simp [Skeleton.braced]
    exact (boundIn_eq hline ⟨'e', rfl, by decide⟩ (by decide) (.inl rfl)).trans (by decide +kernel)
  have hexport : boundIn ("export const " ++ slice ++ "Reducer = " ++ slice ++ "Slice.reducer;") =
      [slice ++ "Reducer"] :=
    boundIn_exportConst (" " ++ slice ++ "Slice.reducer;").toList (by simp) hreducer hreducer'
  have hinner : ["    name: '" ++ slice ++ "',",
      "    initialState: [],",
      "    reducers: \x7b",
      "        defaultReducer: (state, action) => \x7b",
      "            // Add your reducer logic here",
      "        \x7d,",
      "    \x7d,"].flatMap boundIn = [] := flatMap_boundIn_eq_nil (by simp)
  have hend : ["", "\x7d);"].flatMap boundIn = [] := by decide
  rw [bindings_text hends]
  simp only [Skeleton.reducer, List.flatMap_cons, List.flatMap_nil] at hinner hend ⊢
  simp only [List.append_eq_nil_iff] at hinner hend
  simp [hinner, hend, hcreate, hconst, hactions, hexport]

/-- A list with one screen binds the screen and itself. -/
theorem bindings_screenList {name list : String} (hname : Name.isIdentifier name = true)
    (hlist : list ∈ ["stackScreens", "loginScreens"]) :
    bindings (Skeleton.text (Skeleton.screenList list [name])) = [name, list] := by
  have htails := fun c hc => isIdentifierTail_of_mem (c := c) hname hc
  have hne := (Template.notMem_of_isIdentifier hname).2
  have hlists : ∀ list ∈ ["stackScreens", "loginScreens"], IsQuiet list ∧
      boundIn ("export const " ++ list ++ " = [") = [list] := by
    decide +kernel
  obtain ⟨hquiet, hexport⟩ := hlists list hlist
  have himport : boundIn (Skeleton.importDefault name ("../../Screens/" ++ name)) = [name] := by
    rw [boundIn_importDefault (isBare_of_tails htails), words_of_name htails hne]
  have hinner : (Skeleton.screenEntry name).flatMap boundIn = [] :=
    flatMap_boundIn_eq_nil (by simp [Skeleton.screenEntry])
  have hend : ["", "];"].flatMap boundIn = [] := by decide
  rw [bindings_text (names_screenList hquiet (List.forall_mem_singleton.mpr (.of_isIdentifier hname))).ends]
  simp only [Skeleton.screenList, List.map_cons, List.map_nil, List.flatMap_append, List.flatMap_cons,
    List.flatMap_nil, List.append_nil] at hinner hend ⊢
  simp only [List.append_eq_nil_iff] at hend
  simp [hinner, hend, himport, hexport]

/-- The root reducer with one slice binds what it calls, the reducer of the slice and itself. -/
theorem bindings_rootReducer {slice specifier : String}
    (h : ∀ c ∈ slice.toList, Name.isIdentifierTail c = true) (hspecifier : '\n' ∉ specifier.toList) :
    bindings (Skeleton.text [Skeleton.importNamed "combineReducers" "@reduxjs/toolkit",
      Skeleton.importNamed (slice ++ "Reducer") specifier, "",
      "export const rootReducer = combineReducers(\x7b", Skeleton.reducerEntry slice, "\x7d);"]) =
        ["combineReducers", slice ++ "Reducer", "rootReducer"] := by
  obtain ⟨htails, hne⟩ : (∀ c ∈ (slice ++ "Reducer").toList, Name.isIdentifierTail c = true) ∧
      slice ++ "Reducer" ≠ "" := tails_append h (by decide) (by decide)
  have hends : ∀ line ∈ [Skeleton.importNamed "combineReducers" "@reduxjs/toolkit",
      Skeleton.importNamed (slice ++ "Reducer") specifier, "",
      "export const rootReducer = combineReducers(\x7b", Skeleton.reducerEntry slice, "\x7d);"],
      '\n' ∉ line.toList := by
    have hend : '\n' ∉ slice.toList := fun hmem => absurd (h _ hmem) (by decide)
    simp [Skeleton.importNamed, Skeleton.importDefault, Skeleton.braced, Skeleton.reducerEntry, hend,
      hspecifier]
  have hcombine : boundIn (Skeleton.importNamed "combineReducers" "@reduxjs/toolkit") =
      ["combineReducers"] := (boundIn_importNamed (by decide) _).trans (by decide)
  have himport : boundIn (Skeleton.importNamed (slice ++ "Reducer") specifier) =
      [slice ++ "Reducer"] := by
    rw [boundIn_importNamed (isBare_of_tails htails), words_of_name htails hne]
  have hroot : boundIn "export const rootReducer = combineReducers(\x7b" = ["rootReducer"] := by
    decide +kernel
  have hentry : [Skeleton.reducerEntry slice].flatMap boundIn = [] :=
    flatMap_boundIn_eq_nil (by simp [Skeleton.reducerEntry])
  have hend : ["", "\x7d);"].flatMap boundIn = [] := by decide
  rw [bindings_text hends]
  simp only [List.flatMap_cons, List.flatMap_nil, List.append_nil] at hentry hend ⊢
  simp only [List.append_eq_nil_iff] at hend
  simp [hentry, hend, hcombine, himport, hroot]

end Script

end AppScaffold
