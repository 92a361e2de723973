import AppScaffold.Proofs.Path.Lowercase
import AppScaffold.Proofs.Project.Artifacts
import AppScaffold.Proofs.Script.Bindings
import Mathlib.Data.List.Basic
import Mathlib.Tactic.Common

/-!
# Names that scripts derive from the name of an artifact

A slice, its reducer and network functions are called by names that are made of the name of the artifact.
The words of the name are put together without what parted them, so that letters and digits are left. The
first letter tells where such a name begins: a slice begins small, and what follows the method in the name
of a function begins with a capital, so that the method and the resource can be read off the function.
-/

namespace AppScaffold

/-- Different methods act differently. -/
theorem Method.action_injective : Function.Injective Method.action := by
  have hmem : ∀ m, m ∈ Method.all := fun m => by
    cases m with
    | _ => decide
  have hall : ∀ m ∈ Method.all, ∀ m' ∈ Method.all, m.action = m'.action → m = m' := by decide
  exact fun m m' h => hall m (hmem m) m' (hmem m') h

namespace Name

variable {name other : String}

/-- The name is a letter followed by letters and digits. -/
def IsWord (s : String) : Prop :=
  ∃ c cs, s.toList = c :: cs ∧ c.isAlpha = true ∧ ∀ d ∈ cs, d.isAlphanum = true

/-- A letter followed by letters and digits is an identifier without underscores. -/
theorem IsWord.isIdentifier {s : String} (h : IsWord s) :
    Name.isIdentifier s = true ∧ '_' ∉ s.toList := by
  obtain ⟨c, cs, hchars, hc, hcs⟩ := h
  have hall : ∀ d ∈ c :: cs, d.isAlphanum = true :=
    List.forall_mem_cons.mpr ⟨by rw [Char.isAlphanum, hc, Bool.true_or], hcs⟩
  rw [Name.isIdentifier, hchars, isIdentifierChars, hc, Bool.true_and, List.all_eq_true]
  refine ⟨fun d hd => ?_, fun hmem => absurd (hall _ hmem) (by decide)⟩
  rw [isIdentifierTail, hcs d hd, Bool.true_or]

/-- More letters and digits may follow. -/
theorem IsWord.append {s t : String} (h : IsWord s) (ht : ∀ d ∈ t.toList, d.isAlphanum = true) :
    IsWord (s ++ t) := by
  obtain ⟨c, cs, hchars, hc, hcs⟩ := h
  refine ⟨c, cs ++ t.toList, by rw [String.toList_append, hchars, List.cons_append], hc, ?_⟩
  exact List.forall_mem_append.mpr ⟨hcs, ht⟩

/-- Letters are alphanumeric characters of ASCII other than digits. They have both cases, and are in one
of them only. -/
theorem of_isAlpha {c : Char} (h : c.isAlpha = true) :
    c.toNat < 128 ∧ c.isAlphanum = true ∧ c.isDigit = false ∧ c.toLower.isLower = true ∧
      c.toUpper.isUpper = true ∧ (c.isUpper = true → c.isLower = false) := by
  have halphanum : c.isAlphanum = true := by rw [Char.isAlphanum, h, Bool.true_or]
  have hascii : c.toNat < 128 :=
    toNat_lt_of_isIdentifierTail (by rw [isIdentifierTail, halphanum, Bool.true_or])
  have hall : ∀ n, n < 128 → (Char.ofNat n).isAlpha = true → (Char.ofNat n).isDigit = false ∧
      (Char.ofNat n).toLower.isLower = true ∧ (Char.ofNat n).toUpper.isUpper = true ∧
      ((Char.ofNat n).isUpper = true → (Char.ofNat n).isLower = false) := by
    decide
  exact ⟨hascii, halphanum, Text.of_ascii (P := fun c : Char => c.isAlpha = true →
    c.isDigit = false ∧ c.toLower.isLower = true ∧ c.toUpper.isUpper = true ∧
      (c.isUpper = true → c.isLower = false)) hall hascii h⟩

/-- The first letter of a name is the first one of its words, in the case that the style asks for. -/
theorem exists_toList_apply (h : Name.isIdentifier name = true) (style : WordStyle) :
    ∃ (c : Char) (cs : List Char), c.isAlpha = true ∧
      (style.apply name).toList = (if style.capitalFirst then c.toUpper else c.toLower) :: cs := by
  cases hchars : name.toList with
  | nil =>
    rw [Name.isIdentifier, hchars] at h
    cases h
  | cons c cs =>
    rw [Name.isIdentifier, hchars, isIdentifierChars, Bool.and_eq_true] at h
    refine ⟨c, style.write (style.step style.start c).2 cs, h.1, ?_⟩
    obtain ⟨hascii, halphanum, hdigit, -⟩ := of_isAlpha h.1
    have hspace : Text.isLowercase ' ' = false := by decide
    have hfirst : (style.step style.start c).1 =
        [if style.capitalFirst then c.toUpper else c.toLower] := by
      rw [WordStyle.step, Text.isAlphanumeric_of_ascii c hascii, Text.isNumeric_of_ascii c hascii,
        halphanum, hdigit]
      simp only [WordStyle.start, hspace]
      cases style.capitalFirst <;> simp
    rw [WordStyle.apply, String.toList_ofList, hchars, WordStyle.write, hfirst]
    rfl

/-- Words joined without gaps are a letter followed by letters and digits. -/
theorem isWord_apply (h : Name.isIdentifier name = true) {style : WordStyle}
    (hgap : style.spaced = false) : IsWord (style.apply name) := by
  obtain ⟨c, cs, hc, hchars⟩ := exists_toList_apply h style
  obtain ⟨-, -, -, hlower, hupper, -⟩ := of_isAlpha hc
  refine ⟨_, cs, hchars, ?_, fun d hd => ?_⟩
  · split_ifs
    · exact Bool.or_eq_true_iff.mpr (.inl hupper)
    · exact Bool.or_eq_true_iff.mpr (.inr hlower)
  · have hd' : d ∈ (style.apply name).toList := hchars ▸ List.mem_cons_of_mem _ hd
    exact (isAlphanum_of_mem_apply h style hd').resolve_right fun hspace => by simp [hgap] at hspace

/-- A slice begins with a small letter. -/
theorem exists_toList_camel (h : Name.isIdentifier name = true) :
    ∃ c cs, (camel name).toList = c :: cs ∧ c.isLower = true := by
  obtain ⟨c, cs, hc, hchars⟩ := exists_toList_apply h ⟨false, false⟩
  obtain ⟨-, -, -, hlower, -⟩ := of_isAlpha hc
  exact ⟨_, cs, hchars, hlower⟩

/-- What follows the method in the name of a function begins with a capital. -/
theorem exists_toList_pascal (h : Name.isIdentifier name = true) :
    ∃ c cs, (pascal name).toList = c :: cs ∧ c.isUpper = true := by
  obtain ⟨c, cs, hc, hchars⟩ := exists_toList_apply h ⟨true, false⟩
  obtain ⟨-, -, -, -, hupper, -⟩ := of_isAlpha hc
  exact ⟨_, cs, hchars, hupper⟩

/-- The function for a method of a resource. -/
def functionName (name : String) (m : Method) : String := m.action ++ pascal name

/-- The name of a function is a letter followed by letters and digits. -/
theorem isWord_functionName (h : Name.isIdentifier name = true) (m : Method) :
    IsWord (functionName name m) := by
  have haction : IsWord m.action := by
    cases m with
    | _ => exact ⟨_, _, rfl, rfl, List.all_eq_true.mp rfl⟩
  exact haction.append fun d hd =>
    (isAlphanum_of_mem_apply h ⟨true, false⟩ hd).resolve_right fun hspace => by cases hspace.1

/-- The small letters that a function begins with are what the method does. -/
theorem takeWhile_functionName (h : Name.isIdentifier name = true) (m : Method) :
    (functionName name m).toList.takeWhile Char.isLower = m.action.toList := by
  obtain ⟨c, cs, hchars, hc⟩ := exists_toList_pascal h
  have halpha : c.isAlpha = true := Bool.or_eq_true_iff.mpr (.inl hc)
  obtain ⟨-, -, -, -, -, hcase⟩ := of_isAlpha halpha
  have haction : ∀ d ∈ m.action.toList, d.isLower = true := by
    refine List.all_eq_true.mp ?_
    cases m with
    | _ => decide
  rw [functionName, String.toList_append, List.takeWhile_append_of_pos haction, hchars,
    List.takeWhile_cons_of_neg (Bool.eq_false_iff.mp (hcase hc)), List.append_nil]

/-- A function tells its method and the words of its resource. -/
theorem functionName_eq_iff (h : Name.isIdentifier name = true) (h' : Name.isIdentifier other = true)
    (m m' : Method) : functionName name m = functionName other m' ↔ m = m' ∧ pascal name = pascal other := by
  constructor
  · intro heq
    have haction : m.action = m'.action := by
      refine String.toList_injective ?_
      rw [← takeWhile_functionName h m, heq, takeWhile_functionName h' m']
    refine ⟨Method.action_injective haction, ?_⟩
    rwa [functionName, functionName, haction, String.append_right_inj] at heq
  · rintro ⟨rfl, hpascal⟩
    rw [functionName, hpascal, functionName]

end Name

namespace Script

variable {name : String}

/-- A network function is made of whole lines. -/
theorem notMem_end_networkFunction (h : Name.isIdentifier name = true) (m : Method) :
    ∀ line ∈ Skeleton.networkFunction (Name.pascal name) (Name.route name) m, '\n' ∉ line.toList := by
  have hpascal : '\n' ∉ (Name.pascal name).toList := fun hmem =>
    absurd (isAlphanum_of_mem_apply h ⟨true, false⟩ hmem) (by decide)
  have hroute : '\n' ∉ (Name.route name).toList := by
    rw [Name.route, Text.lowercase, String.toList_ofList]
    intro hmem
    exact absurd (isIdentifierTail_of_mem h (Text.mem_of_mem_lowercaseAfter hmem (by decide))) (by decide)
  have hfixed : '\n' ∉ m.action.toList ++ m.arguments.toList ++ m.verb.toList ++ m.suffix.toList := by
    cases m with
    | _ => decide
  simp only [List.mem_append, not_or] at hfixed
  have hbody : '\n' ∉ (if m.sendsBody then ", data" else "").toList := by
    split_ifs
    · decide
    · decide
  simp [Skeleton.networkFunction, hpascal, hroute, hfixed, hbody]

/-- A network function binds its name. -/
theorem boundIn_networkFunction (h : Name.isIdentifier name = true) (m : Method) :
    (Skeleton.networkFunction (Name.pascal name) (Name.route name) m).flatMap boundIn =
      [Name.functionName name m] := by
  have hident := (Name.isWord_functionName h m).isIdentifier.1
  have hconst : boundIn ("export const " ++ (m.action ++ Name.pascal name) ++ " = async (" ++
      m.arguments ++ ") => \x7b") = [Name.functionName name m] :=
    boundIn_exportConst (" async (" ++ m.arguments ++ ") => \x7b").toList
      (by simp [Name.functionName]) (fun c hc => isIdentifierTail_of_mem hident hc)
      (Template.notMem_of_isIdentifier hident).2
  have hinner : ["    try \x7b",
      "        const response = await axios." ++ m.verb ++ "(`$\x7bBASE_URL\x7d/" ++ Name.route name ++
        m.suffix ++ "`" ++ (if m.sendsBody then ", data" else "") ++ ");",
      "        return response.data;",
      "    \x7d catch (error) \x7b",
      "        console.error('" ++ (m.action ++ Name.pascal name) ++ " failed', error);",
      "    \x7d"].flatMap boundIn = [] := flatMap_boundIn_eq_nil (by simp)
  have hend : ["", "\x7d;"].flatMap boundIn = [] := by decide
  simp only [Skeleton.networkFunction, List.flatMap_cons, List.flatMap_nil] at hinner hend ⊢
  simp only [List.append_eq_nil_iff] at hinner hend
  simp [hinner, hend, hconst]

/-- The banner over network functions binds nothing. -/
theorem boundIn_banner (name : String) : (Skeleton.banner name).flatMap boundIn = [] := by
  have hline : ("// ======= " ++ name ++ " =======").toList =
      "// ".toList ++ '=' :: ("====== " ++ name ++ " =======").toList := by simp
  have hbanner : boundIn ("// ======= " ++ name ++ " =======") = [] :=
    (boundIn_eq hline ⟨'/', rfl, by decide⟩ (by decide) (.inl rfl)).trans (by decide)
  have hempty : boundIn "" = [] := by decide
  simp [Skeleton.banner, hbanner, hempty]

/-- Network functions bind their names, one for each method. -/
theorem bindings_networkFunctions (h : Name.isIdentifier name = true) (selection : MethodSelection) :
    bindings (Template.networkFunctions name selection) =
      selection.methods.map (Name.functionName name) := by
  have hname : '\n' ∉ name.toList := fun hmem => absurd (isIdentifierTail_of_mem h hmem) (by decide)
  have hbanner : ∀ line ∈ if selection = .all then Skeleton.banner name else [], '\n' ∉ line.toList := by
    split_ifs
    · simp [Skeleton.banner, hname]
    · simp
  have hfunctions : ∀ line ∈ selection.methods.flatMap
      (Skeleton.networkFunction (Name.pascal name) (Name.route name)), '\n' ∉ line.toList :=
    List.forall_mem_flatMap.mpr fun m _ => notMem_end_networkFunction h m
  have hnone : (if selection = .all then Skeleton.banner name else []).flatMap boundIn = [] := by
    split_ifs
    · exact boundIn_banner name
    · rfl
  rw [Template.networkFunctions, bindings_text (List.forall_mem_append.mpr ⟨hbanner, hfunctions⟩),
    List.flatMap_append, hnone, List.nil_append, List.flatMap_assoc, List.map_eq_flatMap]
  exact List.flatMap_congr fun m _ => boundIn_networkFunction h m

end Script

namespace Template

variable {name : String}

/-- The names that scripts derive from the name of an artifact: its slice, the variables of the slice and
of its reducer, and its network functions. -/
def derivedNames (name : String) : List String :=
  [Name.camel name, Name.camel name ++ "Slice", Name.camel name ++ "Reducer"] ++
    Method.all.map (Name.functionName name)

/-- Where scripts use the names that they derive. -/
structure UsesDerivedNames (name : String) : Prop where
  /-- The file of a slice binds the variables of the slice and of its reducer, beside two that are fixed. -/
  slice : ∀ (e : Extensions) (p : Parameters), p.text "name" = some name → ∃ f : GeneratedFile,
    instantiate e .reducer p = .ok ⟨[f]⟩ ∧ Script.bindings f.content =
      ["createSlice", Name.camel name ++ "Slice", "defaultReducer", Name.camel name ++ "Reducer"]
  /-- The root reducer imports the reducer, and has it under the name of the slice. -/
  registry : ∀ p : Parameters, p.text "name" = some name → ∃ file : Path,
    registryEntry .reducer p = .ok (some ⟨.reducerRegistry,
      some ⟨.named (Name.camel name ++ "Reducer"), file⟩,
      "    " ++ Name.camel name ++ ": " ++ Name.camel name ++ "Reducer,"⟩)
  /-- Network functions, shared ones and those of a screen, are bound by their names, one for each method
  that is asked for. -/
  functions : ∀ (p : Parameters) (raw : String) (selection : MethodSelection),
    p.text "name" = some name → p.text "method" = some raw → MethodSelection.ofText? raw = some selection →
      ∃ script, Script.bindings script = selection.methods.map (Name.functionName name) ∧
        registryEntry .apiFunction p = .ok (some ⟨.apiFunctions, none, script⟩) ∧
        ∀ screen, p.text "screen" = some screen → Name.isIdentifier screen = true →
          registryEntry .screenApi p = .ok (some ⟨.screenApi screen, none, script⟩)

/-- The templates use the names that are derived from identifiers. -/
theorem usesDerivedNames (h : Name.isIdentifier name = true) : UsesDerivedNames name where
  slice _ _ hgiven := ⟨_, instantiate_slice hgiven h,
    Script.bindings_reducer fun _ hc => isIdentifierTail_of_mem_camel h hc⟩
  registry _ hgiven := ⟨_, registryEntry_reducer hgiven h⟩
  functions _ _ selection hgiven hraw hselection :=
    ⟨_, Script.bindings_networkFunctions h selection,
      registryEntry_apiFunction hgiven h hraw hselection,
      fun _ hscreen hident => registryEntry_screenApi hgiven h hraw hselection hscreen hident⟩

/-- All names that scripts derive from an identifier are identifiers without underscores. A slice begins
small, and a resource in the name of a function with a capital, so that two functions have one name only if
they are for one method and the words of their resources are the same. -/
theorem derivedNames_wellFormed (h : Name.isIdentifier name = true) :
    (∀ s ∈ derivedNames name, Name.isIdentifier s = true ∧ '_' ∉ s.toList) ∧
      (∃ c cs, (Name.camel name).toList = c :: cs ∧ c.isLower = true) ∧
      (∃ c cs, (Name.pascal name).toList = c :: cs ∧ c.isUpper = true) ∧
      (∀ other, Name.isIdentifier other = true → ∀ m m',
        Name.functionName name m = Name.functionName other m' ↔
          m = m' ∧ Name.pascal name = Name.pascal other) ∧
      UsesDerivedNames name := by
  have hslice : Name.IsWord (Name.camel name) := Name.isWord_apply h rfl
  have hall : ∀ s ∈ derivedNames name, Name.IsWord s := by
    refine List.forall_mem_append.mpr ⟨?_, List.forall_mem_map.mpr fun m _ => Name.isWord_functionName h m⟩
    simp only [List.forall_mem_cons, List.not_mem_nil, false_imp_iff, implies_true, and_true]
    exact ⟨hslice, hslice.append (List.all_eq_true.mp (by decide)),
      hslice.append (List.all_eq_true.mp (by decide))⟩
  exact ⟨fun s hs => (hall s hs).isIdentifier, Name.exists_toList_camel h, Name.exists_toList_pascal h,
    fun other h' => Name.functionName_eq_iff h h', usesDerivedNames h⟩

/-- Underscores and capitals part words alike. -/
theorem derivedNames_wellFormed_userProfile :
    Name.isIdentifier "user__profile2_" = true ∧ Name.isIdentifier "UserProfile2" = true ∧
      derivedNames "user__profile2_" = ["userProfile2", "userProfile2Slice", "userProfile2Reducer",
        "getUserProfile2", "createUserProfile2", "updateUserProfile2", "deleteUserProfile2"] ∧
      (∀ s ∈ derivedNames "user__profile2_", Name.isIdentifier s = true ∧ '_' ∉ s.toList) ∧
      Name.functionName "user__profile2_" .get = Name.functionName "UserProfile2" .get := by
  have hname : Name.isIdentifier "user__profile2_" = true := by decide
  have hother : Name.isIdentifier "UserProfile2" = true := by decide
  obtain ⟨hall, -, -, hsame, -⟩ := derivedNames_wellFormed hname
  exact ⟨hname, hother, by decide +kernel, hall,
    (hsame "UserProfile2" hother .get .get).mpr ⟨rfl, by decide +kernel⟩⟩

end Template

end AppScaffold
