import AppScaffold.Proofs.Project.Registries
import Mathlib.Data.List.Basic
import Mathlib.Tactic.Common

/-!
# What artifacts add to registries

The names of artifacts are identifiers, so that the entries and imports that are made of them are
always closed in themselves: no name holds a quote, a bracket, a slash or the end of a line.
-/

namespace AppScaffold

/-- The characters of identifiers are ASCII. -/
theorem toNat_lt_of_isIdentifierTail {c : Char} (h : Name.isIdentifierTail c = true) :
    c.toNat < 128 := by
  delta Name.isIdentifierTail Char.isAlphanum Char.isAlpha Char.isUpper Char.isLower Char.isDigit at h
  simp only [Bool.or_eq_true, Bool.and_eq_true, decide_eq_true_eq, beq_iff_eq, ge_iff_le,
    UInt32.le_iff_toNat_le] at h
  rcases h with ((⟨-, h⟩ | ⟨-, h⟩) | ⟨-, h⟩) | rfl
  · exact h.trans_lt (by decide)
  · exact h.trans_lt (by decide)
  · exact h.trans_lt (by decide)
  · decide

/-- A letter or digit of ASCII stays one in capital and in small letters. -/
theorem isAlphanum_of_case {c : Char} (h : c.isAlphanum = true) (hascii : c.toNat < 128) :
    c.toUpper.isAlphanum = true ∧ c.toLower.isAlphanum = true := by
  have hall : ∀ n, n < 128 → (Char.ofNat n).isAlphanum = true →
      (Char.ofNat n).toUpper.isAlphanum = true ∧ (Char.ofNat n).toLower.isAlphanum = true := by
    decide
  exact Text.of_ascii (P := fun c => c.isAlphanum = true →
    c.toUpper.isAlphanum = true ∧ c.toLower.isAlphanum = true) hall hascii h

/-- The words of an identifier that are put together again have its letters and digits, and spaces if
there are to be some. Underscores only part the words. -/
theorem isAlphanum_of_mem_apply {name : String} (h : Name.isIdentifier name = true)
    (style : Name.WordStyle) {c : Char} (hc : c ∈ (style.apply name).toList) :
    c.isAlphanum = true ∨ style.spaced = true ∧ c = ' ' := by
  have hwrite : ∀ (cs : List Char) (scan : Name.WordScan),
      (∀ d ∈ cs, Name.isIdentifierTail d = true) → ∀ c ∈ style.write scan cs,
        c.isAlphanum = true ∨ style.spaced = true ∧ c = ' ' := by
    intro cs
    induction cs with
    | nil =>
      intro scan _ c hc
      cases hc
    | cons d cs ih =>
      intro scan hcs c hc
      have hascii := toNat_lt_of_isIdentifierTail (hcs d List.mem_cons_self)
      rcases List.mem_append.mp hc with hc | hc
      · unfold Name.WordStyle.step at hc
        rw [Text.isAlphanumeric_of_ascii d hascii] at hc
        dsimp only at hc
        split_ifs at hc with hskip _ _ hgap
        · cases hc
        · rw [List.mem_singleton.mp hc]
          exact .inl (by simpa using hskip)
        · rcases List.mem_append.mp hc with hc | hc
          · rw [Bool.and_eq_true] at hgap
            exact .inr ⟨hgap.1, List.mem_singleton.mp hc⟩
          · rw [List.mem_singleton.mp hc]
            exact .inl (isAlphanum_of_case (by simpa using hskip) hascii).1
        · rw [List.mem_singleton.mp hc]
          exact .inl (isAlphanum_of_case (by simpa using hskip) hascii).1
        · rw [List.mem_singleton.mp hc]
          exact .inl (isAlphanum_of_case (by simpa using hskip) hascii).2
      · exact ih _ (fun e he => hcs e (List.mem_cons_of_mem _ he)) c hc
  rw [Name.WordStyle.apply, String.toList_ofList] at hc
  exact hwrite _ _ (fun d hd => Script.isIdentifierTail_of_mem h hd) c hc

/-- So they have the characters of identifiers. -/
theorem isIdentifierTail_of_mem_apply {name : String} (h : Name.isIdentifier name = true)
    (style : Name.WordStyle) {c : Char} (hc : c ∈ (style.apply name).toList) :
    Name.isIdentifierTail c = true ∨ style.spaced = true ∧ c = ' ' :=
  (isAlphanum_of_mem_apply h style hc).imp_left fun hc => by
    rw [Name.isIdentifierTail, hc, Bool.true_or]

/-- The words of an identifier that are put together again without gaps have its characters. -/
theorem isIdentifierTail_of_mem_camel {name : String} (h : Name.isIdentifier name = true) {c : Char}
    (hc : c ∈ (Name.camel name).toList) : Name.isIdentifierTail c = true :=
  (isIdentifierTail_of_mem_apply h _ hc).resolve_right fun hspace => by cases hspace.1

/-- The characters of identifiers have no meaning of their own in a script. -/
theorem plain_of_isIdentifierTail {c : Char} (h : Name.isIdentifierTail c = true) :
    Script.isPlain c = true ∧ Script.isOpening c = false ∧ Script.isClosing c = false ∧ c ≠ '\n' ∧
      c ≠ '\\' ∧ c ≠ '=' := by
  have hall : ∀ n, n < 128 → Name.isIdentifierTail (Char.ofNat n) = true →
      Script.isPlain (Char.ofNat n) = true ∧ Script.isOpening (Char.ofNat n) = false ∧
        Script.isClosing (Char.ofNat n) = false ∧ Char.ofNat n ≠ '\n' ∧ Char.ofNat n ≠ '\\' ∧
          Char.ofNat n ≠ '=' := by
    decide
  have hc := hall c.toNat (toNat_lt_of_isIdentifierTail h)
  rw [Char.ofNat_toNat] at hc
  exact hc h

/-- The directories of the library end with names. -/
theorem Path.isTrimmed_home (a : Archetype) : (⟨"src", [a.home]⟩ : Path).IsTrimmed := by
  refine ⟨fun s hs => ?_, fun hnil => by cases hnil⟩
  obtain rfl := Option.some.inj hs
  cases a <;> decide

namespace Script

/-- A text of identifier characters keeps the depth. -/
theorem Nests.of_identifier {s : List Char} (h : ∀ c ∈ s, Name.isIdentifierTail c = true) (a : Nat) :
    Nests a a s :=
  Nests.of_name fun c hc =>
    have hplain := plain_of_isIdentifierTail (h c hc)
    ⟨hplain.1, hplain.2.1, hplain.2.2.1⟩

/-- The entry of a screen. -/
theorem isEntry_screen {name : String} (h : Name.isIdentifier name = true) :
    IsEntry (Text.join "\n" (Skeleton.screenEntry name)).toList := by
  have hname := fun c hc => isIdentifierTail_of_mem (c := c) h hc
  refine ⟨"    \x7b\n        name: ".toList ++ ('\x22' :: (name.toList ++ ['\x22']) ++
    (",\n        component: ".toList ++ (name.toList ++
      ",\n        options: \x7b headerShown: false \x7d,\n    \x7d".toList))), ?_, ?_⟩
  · simp [Skeleton.screenEntry, Skeleton.braced, Text.join]
  · have hopen : Nests 0 1 "    \x7b\n        name: ".toList :=
      Nests.of_plain (List.all_eq_true.mp (by decide)) (by decide)
    have hquoted : Nests 1 1 ('\x22' :: (name.toList ++ ['\x22'])) := by
      refine Nests.of_quoted fun c hc => ?_
      have hplain := plain_of_isIdentifierTail (hname c hc)
      refine ⟨?_, hplain.2.2.2.2.1⟩
      rintro rfl
      exact absurd hplain.1 (by decide)
    have hcomponent : Nests 1 1 ",\n        component: ".toList :=
      Nests.of_plain (List.all_eq_true.mp (by decide)) (by decide)
    have hclose : Nests 1 0 ",\n        options: \x7b headerShown: false \x7d,\n    \x7d".toList :=
      Nests.of_plain (List.all_eq_true.mp (by decide)) (by decide)
    exact (hopen.append (hquoted.append (hcomponent.append
      ((Nests.of_identifier hname 1).append hclose)))).isClosed

/-- The entry of a reducer. -/
theorem isEntry_reducer {slice : String} (h : ∀ c ∈ slice.toList, Name.isIdentifierTail c = true) :
    IsEntry (Skeleton.reducerEntry slice).toList := by
  refine ⟨"    ".toList ++ (slice.toList ++ (": ".toList ++ (slice.toList ++ "Reducer".toList))),
    ?_, ?_⟩
  · simp [Skeleton.reducerEntry]
  · have hplain : ∀ s : String, (s.toList.all isPlain) = true →
        depthAfter 0 (s.toList.map (·, .code)) = some 0 → Nests 0 0 s.toList := fun s hs hdepth =>
      Nests.of_plain (List.all_eq_true.mp hs) hdepth
    exact ((hplain "    " (by decide) (by decide)).append ((Nests.of_identifier h 0).append
      ((hplain ": " (by decide) (by decide)).append ((Nests.of_identifier h 0).append
        (hplain "Reducer" (by decide) (by decide)))))).isClosed

/-- The import of a name from a module whose path is made of identifiers and dashes is one line. -/
theorem isWholeImport_render {i : ImportLine} {file : Path}
    (hname : match i.binding with
      | .default name => ∀ c ∈ name.toList, Name.isIdentifierTail c = true
      | .named name => ∀ c ∈ name.toList, Name.isIdentifierTail c = true)
    (hmodule : ∀ s ∈ i.module.first :: i.module.rest, ∀ c ∈ s.toList,
      Name.isIdentifierTail c = true ∨ c = '-') :
    IsWholeImport (i.render file).toList := by
  have hspecifier : ∀ c ∈ (Path.moduleSpecifier file i.module).toList,
      isQuote c = false ∧ c ≠ '\\' ∧ c ≠ '\n' := by
    intro c hc
    rcases Path.mem_toList_moduleSpecifier hc with rfl | rfl | ⟨s, hs, hc⟩
    · decide
    · decide
    · rcases hmodule s hs c hc with hc | rfl
      · obtain ⟨hplain, -, -, hline, hescape, -⟩ := plain_of_isIdentifierTail hc
        rw [isPlain, Bool.and_eq_true, Bool.not_eq_true'] at hplain
        exact ⟨hplain.1, hescape, hline⟩
      · decide
  have hbinding : ∀ c, Name.isIdentifierTail c = true → isBindingCharacter c = true ∧ c ≠ '\n' := by
    intro c hc
    obtain ⟨hplain, -, -, hline, -, hequals⟩ := plain_of_isIdentifierTail hc
    rw [isBindingCharacter, hplain, Bool.true_and, bne_iff_ne]
    exact ⟨hequals, hline⟩
  have hwhole := fun names hnames => @isWholeImport_of_spelled names _ hnames hspecifier
  obtain ⟨binding, module⟩ := i
  cases binding with
  | default name =>
    have himport := hwhole name.toList fun c hc => hbinding c (hname c hc)
    simpa [ImportLine.render, Skeleton.importDefault] using himport
  | named name =>
    have himport := hwhole ("\x7b ".toList ++ name.toList ++ " \x7d".toList) fun c hc => by
      simp only [List.mem_append] at hc
      rcases hc with (hc | hc) | hc
      · have hall := List.all_eq_true.mp (show ("\x7b ".toList.all fun c =>
          isBindingCharacter c && c != '\n') = true by decide) c hc
        simpa using hall
      · exact hbinding c (hname c hc)
      · have hall := List.all_eq_true.mp (show (" \x7d".toList.all fun c =>
          isBindingCharacter c && c != '\n') = true by decide) c hc
        simpa using hall
    simpa [ImportLine.render, Skeleton.importNamed, Skeleton.importDefault, Skeleton.braced]
      using himport

end Script

namespace Template

variable {a : Archetype} {p : Parameters} {e : RegistryEntry}

/-- The entry of a screen can be added to a list. -/
theorem takes_screenEntry {aggregator : Aggregator} {name : String}
    (hframe : aggregator.frame ≠ none) (h : Name.isIdentifier name = true) {home : Archetype}
    (hhome : home.home = "Screens") :
    aggregator.Takes ((screenEntry aggregator name).entry.rootedAt ⟨"src", [home.home]⟩) := by
  obtain ⟨hslash, hne⟩ := notMem_of_isIdentifier h
  have hname := fun c hc => Script.isIdentifierTail_of_mem (c := c) h hc
  have hjoin : (⟨"src", [home.home]⟩ : Path).join (.ofText name) = ⟨"src", ["Screens", name]⟩ := by
    rw [Path.ofText_of_notMem hslash, (Path.isTrimmed_home home).join_eq hne, hhome]
    rfl
  refine ⟨fun _ => ⟨Script.isEntry_screen h, _, rfl, ?_⟩, fun hnone => absurd hnone hframe⟩
  refine Script.isWholeImport_render hname fun s hs c hc => .inl ?_
  simp only [hjoin, List.mem_cons, List.not_mem_nil, or_false] at hs
  rcases hs with rfl | rfl | rfl
  · exact Script.isIdentifierTail_of_mem (show Name.isIdentifier "src" = true by decide) hc
  · exact Script.isIdentifierTail_of_mem (show Name.isIdentifier "Screens" = true by decide) hc
  · exact hname c hc

/-- The entry of a reducer can be added to the root reducer. -/
theorem takes_reducerEntry {name : String} (h : Name.isIdentifier name = true) :
    Aggregator.reducerRegistry.Takes
      ((reducerEntry name).entry.rootedAt ⟨"src", [Archetype.reducer.home]⟩) := by
  obtain ⟨hslash, hne⟩ := notMem_of_isIdentifier h
  have hname := fun c hc => Script.isIdentifierTail_of_mem (c := c) h hc
  have hslice := fun c hc => isIdentifierTail_of_mem_camel (c := c) h hc
  have hfile : '/' ∉ (name ++ "-reducer").toList := by simp [hslash]
  have hjoin : (⟨"src", [Archetype.reducer.home]⟩ : Path).join (within name (name ++ "-reducer")) =
      ⟨"src", ["Redux", name, name ++ "-reducer"]⟩ := by
    rw [within_eq hslash hne hfile, (Path.isTrimmed_home .reducer).join_eq hne]
    rfl
  refine ⟨fun _ => ⟨Script.isEntry_reducer hslice, _, rfl, ?_⟩, fun hnone => by cases hnone⟩
  refine Script.isWholeImport_render (fun c hc => ?_) fun s hs c hc => ?_
  · rw [String.toList_append] at hc
    rcases List.mem_append.mp hc with hc | hc
    · exact hslice c hc
    · exact Script.isIdentifierTail_of_mem (show Name.isIdentifier "Reducer" = true by decide) hc
  · simp only [hjoin, List.mem_cons, List.not_mem_nil, or_false] at hs
    have hdash : ∀ s : String, (s.toList.all fun c => Name.isIdentifierTail c || c == '-') = true →
        c ∈ s.toList → Name.isIdentifierTail c = true ∨ c = '-' := fun s hs hc => by
      simpa using List.all_eq_true.mp hs c hc
    rcases hs with rfl | rfl | rfl | rfl
    · exact hdash "src" (by decide) hc
    · exact hdash "Redux" (by decide) hc
    · exact .inl (hname c hc)
    · rw [String.toList_append] at hc
      rcases List.mem_append.mp hc with hc | hc
      · exact .inl (hname c hc)
      · exact hdash "-reducer" (by decide) hc

/-- Network functions can be appended to a module. -/
theorem takes_networkFunctions {aggregator : Aggregator} (h : aggregator.frame = none) (name : String)
    (selection : MethodSelection) (dir : Path) :
    aggregator.Takes
      (Script.Entry.rootedAt ⟨none, networkFunctions name selection⟩ dir) where
  literal hframe := absurd h hframe
  functions _ := ⟨rfl, Skeleton.text_ends _⟩

/-- What a template adds to a registry can be added to it, and the screen of a module of network
functions is an identifier that was given. -/
theorem takes_of_registryEntry (h : registryEntry a p = .ok (some e)) :
    e.aggregator.Takes (e.entry.rootedAt ⟨"src", [a.home]⟩) ∧
      ∀ screen, e.aggregator = .screenApi screen →
        p.text "screen" = some screen ∧ Name.isIdentifier screen = true := by
  cases entryOf_of_registryEntry h with
  | screen _ hname | loginScreen _ hname =>
    refine ⟨takes_screenEntry ?_ hname rfl, fun screen heq => by cases heq⟩
    simp [screenEntry, Aggregator.frame]
  | slice _ hname => exact ⟨takes_reducerEntry hname, fun screen heq => by cases heq⟩
  | functions => exact ⟨takes_networkFunctions rfl _ _ _, fun screen heq => by cases heq⟩
  | screenFunctions _ _ hscreen hident =>
    refine ⟨takes_networkFunctions rfl _ _ _, fun screen' heq => ?_⟩
    obtain rfl := Aggregator.screenApi.inj heq
    exact ⟨hscreen, hident⟩

/-- Network functions of a screen belong in the module of the screen. -/
theorem exists_screenApi (h : registryEntry .screenApi p = .ok (some e)) :
    ∃ screen, e.aggregator = .screenApi screen ∧ p.text "screen" = some screen := by
  cases entryOf_of_registryEntry h with
  | screenFunctions _ _ hscreen => exact ⟨_, rfl, hscreen⟩

/-- Network functions always belong in a module. -/
theorem registryEntry_ne_none (ha : a = .apiFunction ∨ a = .screenApi) :
    registryEntry a p ≠ .ok none := by
  intro h
  cases entryOf_of_registryEntry h with
  | unlisted hnone => rcases ha with rfl | rfl <;> exact absurd hnone (by decide)

end Template

namespace Request

variable {r : Request} {e : Template.RegistryEntry}

/-- What a request adds to a registry can be added to it. -/
theorem takes (h : r.registration = some e) : e.aggregator.Takes e.entry := by
  rw [registration] at h
  split at h
  · rename_i entry hentry
    cases entry with
    | none => cases h
    | some entry =>
      obtain rfl := Option.some.inj h
      exact (Template.takes_of_registryEntry hentry).1
  · cases h

/-- The screen of the registry of a request is an identifier that was given. -/
theorem given_of_registration (h : r.registration = some e) {screen : String}
    (hscreen : e.aggregator = .screenApi screen) :
    r.params.text "screen" = some screen ∧ Name.isIdentifier screen = true := by
  rw [registration] at h
  split at h
  · rename_i entry hentry
    cases entry with
    | none => cases h
    | some entry =>
      obtain rfl := Option.some.inj h
      exact (Template.takes_of_registryEntry hentry).2 screen hscreen
  · cases h

/-- The registry of a request is named after an identifier, if after anything. -/
theorem isNamed_aggregator (h : r.registration = some e) : e.aggregator.IsNamed := fun _ hscreen =>
  (given_of_registration h hscreen).2

/-- The registry of a request has a place if the names in the request are short. -/
theorem isShort_aggregator (hshort : r.IsShort) (h : r.registration = some e) :
    e.aggregator.IsShort := fun screen hscreen =>
  have hgiven := given_of_registration h hscreen
  ⟨hgiven.2, hshort "screen" (by decide) screen hgiven.1⟩

end Request

end AppScaffold
