import AppScaffold.Proofs.Dialogue.Collected
import AppScaffold.Proofs.Project.Growth
import Mathlib.Data.List.DropRight
import Mathlib.Tactic.Common

/-!
# Which requests are accepted

A request is accepted if its texts are given, names are identifiers, choices are among those on
offer, an address has no quotes, and the screen of network functions has a directory. Otherwise it is
refused before anything has been written: the first text that is missing is named, or else a value
that was given.
-/

namespace AppScaffold

namespace Text

/-- A trimmed text is not trimmed again. -/
theorem trim_trim (s : String) : trim (trim s) = trim s := by
  have hfront : (trimChars s.toList).dropWhile isBlank = trimChars s.toList := by
    rw [List.dropWhile_eq_self_iff]
    intro hpos hblank
    have hpref : trimChars s.toList <+: s.toList.dropWhile isBlank :=
      List.rdropWhile_prefix isBlank _
    rw [hpref.getElem hpos] at hblank
    exact List.dropWhile_get_zero_not isBlank s.toList _ hblank
  have hback : trimEnd (trimChars s.toList) = trimChars s.toList :=
    List.rdropWhile_idempotent isBlank _
  rw [trim, trim, String.toList_ofList, trimChars, hfront, hback]

end Text

/-- The text of a parameter is trimmed. -/
theorem Parameters.trim_of_text {p : Parameters} {key t : String} (h : p.text key = some t) :
    Text.trim t = t := by
  unfold text at h
  split at h
  · dsimp only at h
    split_ifs at h
    rw [← Option.some.inj h, Text.trim_trim]
  · cases h

/-- A trimmed text is the name of a variant up to the case of its letters, or means no variant. -/
theorem Variant.ofText?_eq_none_iff {t : String} (h : Text.trim t = t) :
    ofText? t = none ↔ ¬∃ v ∈ all, Text.sameUpToCase v.name t = true := by
  rw [ofText?, h, List.find?_eq_none]
  simp

/-- A trimmed text is a choice in any case of its letters, or no method is meant. -/
theorem MethodSelection.ofText?_eq_none_iff {t : String} (h : Text.trim t = t) :
    ofText? t = none ↔ Text.lowercase t ∉ choices := by
  have hall : Method.all.map Method.verb ++ ["all"] = choices := by decide
  rw [ofText?, h, ← hall, List.mem_append, List.mem_singleton, not_or, List.mem_map]
  split_ifs with heq
  · simp [heq]
  · rw [Option.map_eq_none_iff, List.find?_eq_none]
    simp [heq]

namespace Template

variable {a : Archetype} {p : Parameters} {e : Extensions} {α β : Type} {P Q : Prop}
  {x : Except Problem α} {parameter t : String}

/-- The parameter is given, and it is an identifier. -/
def GivesIdentifier (p : Parameters) (parameter : String) : Prop :=
  ∃ t, p.text parameter = some t ∧ Name.isIdentifier t = true

/-- The methods of network functions are given. -/
def GivesMethod (p : Parameters) : Prop :=
  ∃ t, p.text "method" = some t ∧ Text.lowercase t ∈ ["get", "post", "put", "delete", "all"]

/-- An artifact can be made from the parameters. -/
def Accepts (p : Parameters) : Archetype → Prop
  | .screen | .loginScreen | .reducer => GivesIdentifier p "name"
  | .component => GivesIdentifier p "name" ∧
      (∃ t, p.text "variant" = some t ∧ ∃ v ∈ Variant.all, Text.sameUpToCase v.name t = true) ∧
      ∀ element ∈ p.list "elements", Name.isIdentifier element = true
  | .apiConfig => ∃ t, p.text "base_url" = some t ∧
      ∀ c ∈ t.toList, c ≠ '\'' ∧ c ≠ '"' ∧ c ≠ '`' ∧ c ≠ '\\'
  | .apiFunction => GivesIdentifier p "name" ∧ GivesMethod p
  | .screenApi => GivesIdentifier p "name" ∧ GivesMethod p ∧ GivesIdentifier p "screen"
  | .store | .navigation => True

/-- The value of a parameter is objected to. -/
def IsObjection (a : Archetype) (p : Parameters) (e : Problem) : Prop :=
  ∃ parameter value objection, e = .invalidParameter a parameter value objection ∧
    (p.text parameter = some value ∨ value ∈ p.list parameter)

/-- A request whose value is objected to is refused. -/
theorem IsObjection.isRejection {problem : Problem} (h : IsObjection a p problem) :
    problem.isRejection = true := by
  obtain ⟨_, _, _, rfl, -⟩ := h
  rfl

/-- A check is passed exactly if the condition holds; otherwise the value of a parameter is objected
to. -/
structure Decides (a : Archetype) (p : Parameters) (x : Except Problem α) (P : Prop) : Prop where
  /-- The check can be passed. -/
  passes : P → ∃ y, x = .ok y
  /-- The check can fail. -/
  objects : ¬P → ∃ e, x = .error e ∧ IsObjection a p e

namespace Decides

/-- There is nothing to check. -/
theorem ok (y : α) : Decides a p (.ok y) True := ⟨fun _ => ⟨y, rfl⟩, fun h => absurd trivial h⟩

/-- A value is objected to. -/
theorem error {value : String} {objection : Objection} (hP : ¬P)
    (h : p.text parameter = some value ∨ value ∈ p.list parameter) :
    Decides a p (.error (.invalidParameter a parameter value objection) : Except Problem α) P :=
  ⟨fun hp => absurd hp hP, fun _ => ⟨_, rfl, _, _, _, rfl, h⟩⟩

/-- Checks are made one after the other. -/
theorem bind {f : α → Except Problem β} (h : Decides a p x P)
    (hf : ∀ y, x = .ok y → Decides a p (f y) Q) : Decides a p (x >>= f) (P ∧ Q) := by
  constructor
  · rintro ⟨hP, hQ⟩
    obtain ⟨y, hy⟩ := h.passes hP
    obtain ⟨z, hz⟩ := (hf y hy).passes hQ
    exact ⟨z, by rw [hy]; exact hz⟩
  · intro hnot
    by_cases hP : P
    · obtain ⟨y, hy⟩ := h.passes hP
      obtain ⟨e, he, hobjection⟩ := (hf y hy).objects fun hQ => hnot ⟨hP, hQ⟩
      exact ⟨e, by rw [hy]; exact he, hobjection⟩
    · obtain ⟨e, he, hobjection⟩ := h.objects hP
      exact ⟨e, by rw [he]; rfl, hobjection⟩

/-- A check that is passed is followed by the next one. -/
theorem of_ok {y : α} {f : α → Except Problem β} (hx : x = .ok y) (h : Decides a p (f y) P) :
    Decides a p (x >>= f) P := by
  rw [hx]
  exact h

/-- The condition may be put in other words. -/
theorem congr (h : Decides a p x P) (hPQ : P ↔ Q) : Decides a p x Q := by rwa [← propext hPQ]

/-- A check that is passed shows the condition. -/
theorem exists_iff (h : Decides a p x P) : (∃ y, x = .ok y) ↔ P := by
  refine ⟨fun ⟨y, hy⟩ => ?_, h.passes⟩
  by_contra hP
  obtain ⟨e, he, -⟩ := h.objects hP
  cases hy.symm.trans he

/-- A check that fails objects to a value. -/
theorem isObjection (h : Decides a p x P) {problem : Problem} (hx : x = .error problem) :
    IsObjection a p problem := by
  have hP : ¬P := fun hP => by
    obtain ⟨y, hy⟩ := h.passes hP
    cases hy.symm.trans hx
  obtain ⟨e, he, hobjection⟩ := h.objects hP
  rwa [Except.error.inj (hx.symm.trans he)]

end Decides

/-- The texts that an archetype needs are looked for in order, and the first one that is missing is
named. -/
theorem checkRequired_eq (a : Archetype) (p : Parameters) (parameters : List String) :
    checkRequired a p parameters =
      match parameters.find? fun parameter => (p.text parameter).isNone with
      | some parameter => .error (.missingParameter a parameter)
      | none => .ok () := by
  induction parameters with
  | nil => rfl
  | cons parameter parameters ih =>
    rw [checkRequired, required, List.find?_cons]
    cases p.text parameter with
    | none => rfl
    | some t => exact ih

section Given

/-- An identifier is asked for. -/
theorem identifier_decides (h : p.text parameter = some t) :
    Decides a p (identifier a p parameter) (GivesIdentifier p parameter) := by
  have hgives : GivesIdentifier p parameter ↔ Name.isIdentifier t = true := by
    rw [GivesIdentifier, h]
    simp
  refine .of_ok (required_eq h) ?_
  split_ifs with hident
  · exact (Decides.ok t).congr (by simp [hgives, hident])
  · exact .error (fun hgiven => hident (hgives.mp hgiven)) (.inl h)

/-- The methods of network functions are asked for, and the screen to which they belong. -/
theorem networkTarget_decides {name method : String} (hname : p.text "name" = some name)
    (hmethod : p.text "method" = some method)
    (hscreen : a = .screenApi → ∃ screen, p.text "screen" = some screen) :
    Decides a p (networkTarget a p) (GivesIdentifier p "name" ∧ GivesMethod p ∧
      (a = .screenApi → GivesIdentifier p "screen")) := by
  refine (identifier_decides hname).bind fun y hy => ?_
  refine .of_ok (required_eq hmethod) ?_
  have hgives : GivesMethod p ↔ MethodSelection.ofText? method ≠ none := by
    rw [ne_eq, MethodSelection.ofText?_eq_none_iff (Parameters.trim_of_text hmethod), not_not,
      GivesMethod, hmethod]
    simp [MethodSelection.choices]
  cases hselection : MethodSelection.ofText? method with
  | none => exact .error (fun h => hgives.mp h.1 hselection) (.inl hmethod)
  | some selection =>
    have hgiven : GivesMethod p := hgives.mpr (by simp [hselection])
    dsimp only
    split_ifs with ha
    · obtain ⟨screen, hscreen⟩ := hscreen ha
      exact ((identifier_decides hscreen).bind fun z _ => Decides.ok _).congr (by simp [hgiven, ha])
    · exact (Decides.ok _).congr (by simp [hgiven, ha])

/-- The variant and the elements of a component are asked for. -/
theorem variantTree_decides {name variant : String} (hname : p.text "name" = some name)
    (hvariant : p.text "variant" = some variant) :
    Decides .component p (variantTree e p) (Accepts p .component) := by
  refine (identifier_decides hname).bind fun y hy => ?_
  refine .of_ok (required_eq hvariant) ?_
  have hgives : (∃ t, p.text "variant" = some t ∧
      ∃ v ∈ Variant.all, Text.sameUpToCase v.name t = true) ↔ Variant.ofText? variant ≠ none := by
    rw [ne_eq, Variant.ofText?_eq_none_iff (Parameters.trim_of_text hvariant), not_not, hvariant]
    simp
  cases hknown : Variant.ofText? variant with
  | none => exact .error (fun h => hgives.mp h.1 hknown) (.inl hvariant)
  | some v =>
    dsimp only
    cases helement : (p.list "elements").find? fun element => !Name.isIdentifier element with
    | none =>
      rw [List.find?_eq_none] at helement
      refine (Decides.ok _).congr (iff_of_true trivial ⟨hgives.mpr (by simp [hknown]), ?_⟩)
      exact fun element hmem => by simpa using helement element hmem
    | some element =>
      have hmem := List.mem_of_find?_eq_some helement
      have hident := List.find?_some helement
      exact .error (fun h => by simp [h.2 element hmem] at hident) (.inr hmem)

/-- The base address is asked for. -/
theorem addressTree_decides {url : String} (hurl : p.text "base_url" = some url) :
    Decides .apiConfig p (addressTree e p) (Accepts p .apiConfig) := by
  have hgives : Accepts p .apiConfig ↔ ¬url.toList.any Address.isQuoteOrBackslash = true := by
    rw [Accepts, hurl, List.any_eq_true]
    simp only [Option.some.injEq, exists_eq_left', not_exists, not_and, Address.isQuoteOrBackslash,
      Script.isQuote, Bool.or_eq_true, beq_iff_eq, not_or, and_assoc]
    exact forall₂_congr fun c _ => and_left_comm
  refine .of_ok (required_eq hurl) ?_
  split_ifs with hquote
  · exact .error (fun h => hgives.mp h hquote) (.inl hurl)
  · exact (Decides.ok _).congr (by simp [hgives, hquote])

/-- An artifact that needs a name and nothing else is made for an identifier. -/
theorem named_decides {f : String → Except Problem α} {g : String → α} (hf : ∀ s, f s = .ok (g s))
    (hname : p.text "name" = some t) :
    Decides a p (identifier a p "name" >>= f) (GivesIdentifier p "name") := by
  refine ((identifier_decides hname).bind fun y _ => ?_).congr (and_iff_left trivial)
  rw [hf]
  exact .ok _

/-- Once the texts that an archetype needs are there, its files are made unless a value is objected
to. -/
theorem instantiate_decides (h : ∀ parameter ∈ a.required, ∃ t, p.text parameter = some t) :
    Decides a p (instantiate e a p) (Accepts p a) := by
  have hgiven : checkRequired a p a.required = .ok () := by
    rw [checkRequired_eq, List.find?_eq_none.mpr]
    intro parameter hmem
    obtain ⟨t, ht⟩ := h parameter hmem
    simp [ht]
  refine .of_ok hgiven ?_
  cases a with
  | screen | loginScreen | reducer =>
    obtain ⟨name, hname⟩ := h "name" (by decide)
    exact named_decides (fun _ => rfl) hname
  | component =>
    obtain ⟨name, hname⟩ := h "name" (by decide)
    obtain ⟨variant, hvariant⟩ := h "variant" (by decide)
    exact variantTree_decides hname hvariant
  | store | navigation => exact .ok _
  | apiConfig =>
    obtain ⟨url, hurl⟩ := h "base_url" (by decide)
    exact addressTree_decides hurl
  | apiFunction =>
    obtain ⟨name, hname⟩ := h "name" (by decide)
    obtain ⟨method, hmethod⟩ := h "method" (by decide)
    refine ((networkTarget_decides hname hmethod (by simp)).bind fun y _ => Decides.ok _).congr ?_
    simp [Accepts]
  | screenApi =>
    obtain ⟨name, hname⟩ := h "name" (by decide)
    obtain ⟨method, hmethod⟩ := h "method" (by decide)
    have hscreen := h "screen" (by decide)
    refine ((networkTarget_decides hname hmethod fun _ => hscreen).bind
      fun y _ => Decides.ok _).congr ?_
    simp [Accepts]

end Given

/-- An artifact can be made only if the texts that it needs are given. -/
theorem Accepts.given (h : Accepts p a) :
    ∀ parameter ∈ a.required, ∃ t, p.text parameter = some t := by
  cases a with
  | screen | loginScreen | reducer =>
    obtain ⟨name, hname, -⟩ := h
    simp [Archetype.required, hname]
  | component =>
    obtain ⟨⟨name, hname, -⟩, ⟨variant, hvariant, -⟩, -⟩ := h
    simp [Archetype.required, hname, hvariant]
  | apiConfig =>
    obtain ⟨url, hurl, -⟩ := h
    simp [Archetype.required, hurl]
  | apiFunction =>
    obtain ⟨⟨name, hname, -⟩, method, hmethod, -⟩ := h
    simp [Archetype.required, hname, hmethod]
  | screenApi =>
    obtain ⟨⟨name, hname, -⟩, ⟨method, hmethod, -⟩, screen, hscreen, -⟩ := h
    simp [Archetype.required, hname, hmethod, hscreen]
  | store | navigation => simp [Archetype.required]

section Entry

variable {problem : Problem}

/-- Two checks that begin alike fail alike if they go on alike. -/
theorem bind_eq_error_iff {f : α → Except Problem β} {γ : Type} {g : α → Except Problem γ}
    (h : ∀ y, x = .ok y → (f y = .error problem ↔ g y = .error problem)) :
    x >>= f = .error problem ↔ x >>= g = .error problem := by
  cases x with
  | error e =>
    exact ⟨fun he => congrArg Except.error (Except.error.inj he),
      fun he => congrArg Except.error (Except.error.inj he)⟩
  | ok y => exact h y rfl

/-- The entry of an artifact is refused for the same reason as its files. -/
theorem registryEntry_eq_error_iff (e : Extensions)
    (ha : a ∈ [.screen, .loginScreen, .reducer, .apiFunction, .screenApi]) :
    registryEntry a p = .error problem ↔ instantiate e a p = .error problem := by
  refine bind_eq_error_iff fun _ _ => ?_
  simp only [List.mem_cons, List.not_mem_nil, or_false] at ha
  rcases ha with rfl | rfl | rfl | rfl | rfl
  · exact bind_eq_error_iff fun _ _ => iff_of_false nofun nofun
  · exact bind_eq_error_iff fun _ _ => iff_of_false nofun nofun
  · exact bind_eq_error_iff fun _ _ => iff_of_false nofun nofun
  · exact bind_eq_error_iff fun _ _ => iff_of_false nofun nofun
  · refine bind_eq_error_iff fun y hy => ?_
    obtain ⟨screen, hscreen⟩ := exists_identifier hy
    rw [hscreen]
    exact iff_of_false nofun nofun

/-- An artifact whose files are made has its entry made, if it belongs in a registry. -/
theorem exists_registryEntry {tree : FileTree} (h : instantiate e a p = .ok tree) :
    ∃ entry, registryEntry a p = .ok entry := by
  by_cases ha : a ∈ [.screen, .loginScreen, .reducer, .apiFunction, .screenApi]
  · cases hentry : registryEntry a p with
    | ok entry => exact ⟨entry, rfl⟩
    | error problem =>
      rw [(registryEntry_eq_error_iff e ha).mp hentry] at h
      cases h
  · obtain ⟨_, hgiven, -⟩ := exists_of_bind_eq_ok h
    unfold registryEntry
    rw [hgiven]
    cases a with
    | component | store | apiConfig | navigation => exact ⟨none, rfl⟩
    | _ => exact absurd (by decide) ha

end Entry

end Template

namespace Settings

variable {s : Settings} {v : Volume} {root : Path} {r : Request} {e : Problem}

/-- A request can be carried out: an artifact can be made from its parameters, and network functions
of a screen have the directory of the screen. -/
def Accepts (s : Settings) (v : Volume) (root : Path) (r : Request) : Prop :=
  Template.Accepts r.params r.archetype ∧
    (r.archetype = .screenApi → ∃ screen, r.params.text "screen" = some screen ∧
      v.isDir ((root.join s.layout.screensDir).join (.ofText screen)) = true)

/-- The directory of the screen is asked for. -/
theorem checkScreen_decides (h : r.archetype = .screenApi → ∃ t, r.params.text "screen" = some t) :
    Template.Decides r.archetype r.params (s.checkScreen v root r)
      (r.archetype = .screenApi → ∃ screen, r.params.text "screen" = some screen ∧
        v.isDir ((root.join s.layout.screensDir).join (.ofText screen)) = true) := by
  rw [checkScreen]
  split_ifs with ha
  · obtain ⟨screen, hscreen⟩ := h ha
    rw [hscreen]
    dsimp only
    split_ifs with hdir
    · exact (Template.Decides.ok ()).congr (by simp [hdir])
    · exact .error (fun hgiven => hdir (by simpa using hgiven ha)) (.inl hscreen)
  · exact (Template.Decides.ok ()).congr (by simp [ha])

/-- A request without a text that it needs is refused for the first one that is missing. -/
theorem prepare_of_missing {parameter : String}
    (h : (r.archetype.required.find? fun parameter => (r.params.text parameter).isNone) =
      some parameter) : s.prepare v root r = .error (.missingParameter r.archetype parameter) := by
  have hchecked := Template.checkRequired_eq r.archetype r.params r.archetype.required
  rw [h] at hchecked
  unfold prepare Template.instantiate
  rw [hchecked]
  rfl

/-- Where no text is missing all of them are given. -/
theorem exists_text_of_find?
    (h : (r.archetype.required.find? fun parameter => (r.params.text parameter).isNone) = none) :
    ∀ parameter ∈ r.archetype.required, ∃ t, r.params.text parameter = some t := by
  intro parameter hmem
  rw [List.find?_eq_none] at h
  simpa [Option.ne_none_iff_exists'] using h parameter hmem

/-- Once the texts that a request needs are there, it is accepted unless a value is objected to. -/
theorem prepare_decides
    (h : ∀ parameter ∈ r.archetype.required, ∃ t, r.params.text parameter = some t) :
    Template.Decides r.archetype r.params (s.prepare v root r) (s.Accepts v root r) := by
  refine (Template.instantiate_decides h).bind fun tree htree => ?_
  obtain ⟨entry, hentry⟩ := Template.exists_registryEntry htree
  refine .of_ok hentry ?_
  refine ((checkScreen_decides fun ha => h "screen" ?_).bind fun _ _ => .ok _).congr
    (and_iff_left trivial)
  rw [ha]
  decide

/-- A request is accepted exactly if it can be carried out. A request that is refused changes nothing:
the first text that is missing is named, or, if none is, a value that was given is objected to. The
entry of an artifact in a registry is refused for the same reason as its files. -/
theorem generate_accepts (s : Settings) (v : Volume) (root : Path) (r : Request) :
    ((∃ o, (s.generate v root r).1 = .ok o) ↔ s.Accepts v root r) ∧
    (∀ e, (s.generate v root r).1 = .error e →
      (s.generate v root r).2 = v ∧ e.isRejection = true ∧
      match r.archetype.required.find? fun parameter => (r.params.text parameter).isNone with
      | some parameter => e = .missingParameter r.archetype parameter
      | none => Template.IsObjection r.archetype r.params e) ∧
    (r.archetype ∈ [.screen, .loginScreen, .reducer, .apiFunction, .screenApi] → ∀ e,
      (Template.registryEntry r.archetype r.params = .error e ↔
        Template.instantiate s.extensions r.archetype r.params = .error e)) := by
  refine ⟨?_, fun e he => ?_, fun ha e => Template.registryEntry_eq_error_iff _ ha⟩
  · have hprepared : (∃ tree entry, s.prepare v root r = .ok (tree, entry)) ↔
        ∃ prepared, s.prepare v root r = .ok prepared :=
      ⟨fun ⟨_, _, h⟩ => ⟨_, h⟩, fun ⟨prepared, h⟩ => ⟨prepared.1, prepared.2, h⟩⟩
    rw [exists_outcome_iff, hprepared]
    cases hfind : r.archetype.required.find? fun parameter => (r.params.text parameter).isNone with
    | some parameter =>
      refine iff_of_false ?_ fun hacceptable => ?_
      · rintro ⟨prepared, hprepare⟩
        cases hprepare.symm.trans (prepare_of_missing hfind)
      · obtain ⟨t, ht⟩ := hacceptable.1.given parameter (List.mem_of_find?_eq_some hfind)
        simpa [ht] using List.find?_some hfind
    | none => exact (prepare_decides (exists_text_of_find? hfind)).exists_iff
  · have hprepare := generate_eq_error_iff.mp he
    refine ⟨volume_of_refused he, ?_⟩
    cases hfind : r.archetype.required.find? fun parameter => (r.params.text parameter).isNone with
    | some parameter =>
      obtain rfl := Except.error.inj (hprepare.symm.trans (prepare_of_missing hfind))
      exact ⟨rfl, rfl⟩
    | none =>
      have hobjection := (prepare_decides (exists_text_of_find? hfind)).isObjection hprepare
      exact ⟨hobjection.isRejection, hobjection⟩

end Settings

end AppScaffold
