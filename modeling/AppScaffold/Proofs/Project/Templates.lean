import AppScaffold.Generate
import AppScaffold.Proofs.Loop
import AppScaffold.Template
import Mathlib.Tactic.Common

/-!
# What templates make

A template looks at all parameters that it needs before it makes anything. What it has found out about
them, and what it makes then, is listed here once for all archetypes: `TreeOf` for the files of an
artifact and `EntryOf` for its entry in a registry. What holds of all artifacts is read off these lists.
A request is prepared by its template, and for the functions of a screen the screen is looked for.
-/

namespace AppScaffold

namespace Template

variable {e : Extensions} {a : Archetype} {p : Parameters} {tree : FileTree} {name : String}

/-- A text that is given is used. -/
theorem required_eq {parameter t : String} (h : p.text parameter = some t) :
    required a p parameter = .ok t := by
  rw [required, h]

/-- A parameter that has to be there is there. -/
theorem of_required {parameter t : String} (h : required a p parameter = .ok t) :
    p.text parameter = some t := by
  unfold required at h
  cases htext : p.text parameter with
  | none =>
    rw [htext] at h
    cases h
  | some s =>
    rw [htext] at h
    rw [Except.ok.inj h]

/-- An identifier is given, and it is one. -/
theorem of_identifier {parameter : String} (h : identifier a p parameter = .ok name) :
    p.text parameter = some name ∧ Name.isIdentifier name = true := by
  obtain ⟨value, hvalue, h⟩ := exists_of_bind_eq_ok h
  split_ifs at h with hident
  obtain rfl := Except.ok.inj h
  exact ⟨of_required hvalue, hident⟩

/-- The screen of network functions has been checked with their name. -/
theorem exists_identifier {y : String × MethodSelection} (h : networkTarget .screenApi p = .ok y) :
    ∃ screen, identifier .screenApi p "screen" = .ok screen := by
  obtain ⟨name, -, h⟩ := exists_of_bind_eq_ok h
  obtain ⟨raw, -, h⟩ := exists_of_bind_eq_ok h
  cases hselection : MethodSelection.ofText? raw with
  | none =>
    rw [hselection] at h
    cases h
  | some selection =>
    rw [hselection] at h
    obtain ⟨screen, hscreen, -⟩ := exists_of_bind_eq_ok h
    exact ⟨screen, hscreen⟩

/-- What is asked for: in a few words, and as the lines of the component and of its style sheet. -/
inductive Asks (p : Parameters) (name : String) :
    Archetype → String → List String → List String → Prop where
  /-- A screen of the main stack. -/
  | screen :
    Asks p name .screen "screen" (Skeleton.screen name (Name.title name)) Skeleton.screenStyles
  /-- A screen before sign-in. -/
  | loginScreen :
    Asks p name .loginScreen "screen" (Skeleton.screen name (Name.title name)) Skeleton.screenStyles
  /-- A component of a variant, with elements that are identifiers. -/
  | component {raw : String} {v : Variant} (hraw : p.text "variant" = some raw)
    (hv : Variant.ofText? raw = some v)
    (helements : ∀ element ∈ p.list "elements", Name.isIdentifier element = true) :
    Asks p name .component (v.name ++ " component")
      (Skeleton.component v name (p.list "elements")) (Skeleton.componentStyles v.styling)

/-- The files that the template of an archetype makes from parameters that have passed its checks. -/
inductive TreeOf (e : Extensions) (p : Parameters) : Archetype → FileTree → Prop where
  /-- A screen or a component: three files that are called after it. -/
  | component {a : Archetype} {name kind : String} {component styles : List String}
    (hgiven : p.text "name" = some name) (hname : Name.isIdentifier name = true)
    (hasks : Asks p name a kind component styles) :
    TreeOf e p a (componentTree e name kind component styles)
  /-- A slice: one file that is called after it. -/
  | slice {name : String} (hgiven : p.text "name" = some name)
    (hname : Name.isIdentifier name = true) :
    TreeOf e p .reducer (.ofList [⟨within name (e.scriptFile (name ++ "-reducer")),
      Skeleton.text (Skeleton.reducer (Name.camel name)), name ++ " slice"⟩])
  /-- The store. -/
  | store : TreeOf e p .store
      (.ofList [⟨.ofText (e.scriptFile "store"), Skeleton.text Skeleton.store, "Redux store"⟩])
  /-- The base address. -/
  | address {raw : String} (hraw : p.text "base_url" = some raw)
    (hplain : raw.toList.any Address.isQuoteOrBackslash = false) :
    TreeOf e p .apiConfig (.ofList [⟨.ofText (e.scriptFile "api.config"),
      Skeleton.text (Skeleton.baseAddress (Address.normal raw)), "API base address"⟩])
  /-- Network functions, which have no files of their own. -/
  | functions {a : Archetype} (ha : a = .apiFunction ∨ a = .screenApi) : TreeOf e p a {}
  /-- The navigation. -/
  | navigation : TreeOf e p .navigation (navigationTree e p)

/-- Where a template makes files, its checks have been passed. -/
theorem treeOf_of_instantiate (h : instantiate e a p = .ok tree) :
    TreeOf e p a tree := by
  obtain ⟨-, -, h⟩ := exists_of_bind_eq_ok h
  cases a with
  | screen =>
    obtain ⟨name, hname, h⟩ := exists_of_bind_eq_ok h
    obtain ⟨hgiven, hident⟩ := of_identifier hname
    rw [← Except.ok.inj h]
    exact .component hgiven hident .screen
  | loginScreen =>
    obtain ⟨name, hname, h⟩ := exists_of_bind_eq_ok h
    obtain ⟨hgiven, hident⟩ := of_identifier hname
    rw [← Except.ok.inj h]
    exact .component hgiven hident .loginScreen
  | component =>
    obtain ⟨name, hname, h⟩ := exists_of_bind_eq_ok h
    obtain ⟨raw, hraw, h⟩ := exists_of_bind_eq_ok h
    obtain ⟨hgiven, hident⟩ := of_identifier hname
    split at h
    · cases h
    · next v hv =>
      split at h
      · cases h
      · next helements =>
        rw [← Except.ok.inj h]
        refine .component hgiven hident (.component (of_required hraw) hv fun element hmem => ?_)
        simpa using List.find?_eq_none.mp helements element hmem
  | reducer =>
    obtain ⟨name, hname, h⟩ := exists_of_bind_eq_ok h
    obtain ⟨hgiven, hident⟩ := of_identifier hname
    rw [← Except.ok.inj h]
    exact .slice hgiven hident
  | store =>
    rw [← Except.ok.inj h]
    exact .store
  | apiConfig =>
    obtain ⟨raw, hraw, h⟩ := exists_of_bind_eq_ok h
    split_ifs at h with hquote
    rw [← Except.ok.inj h]
    exact .address (of_required hraw) (Bool.eq_false_iff.mpr hquote)
  | apiFunction =>
    obtain ⟨_, -, h⟩ := exists_of_bind_eq_ok h
    rw [← Except.ok.inj h]
    exact .functions (.inl rfl)
  | screenApi =>
    obtain ⟨_, -, h⟩ := exists_of_bind_eq_ok h
    rw [← Except.ok.inj h]
    exact .functions (.inr rfl)
  | navigation =>
    rw [← Except.ok.inj h]
    exact .navigation

/-- A component is made if a name is given that is an identifier, and the rest is as it should be. -/
theorem exists_of_instantiate_component
    (ha : a = .screen ∨ a = .loginScreen ∨ a = .component) (h : instantiate e a p = .ok tree) :
    ∃ name kind component styles, p.text "name" = some name ∧ Name.isIdentifier name = true ∧
      Asks p name a kind component styles ∧ tree = componentTree e name kind component styles := by
  cases treeOf_of_instantiate h with
  | component hgiven hname hasks => exact ⟨_, _, _, _, hgiven, hname, hasks, rfl⟩
  | functions hfunctions => rcases hfunctions with rfl | rfl <;> exact absurd ha (by decide)
  | slice | store | address | navigation => exact absurd ha (by decide)

/-- A slice is one file in a directory that is called after it. -/
theorem exists_of_instantiate_reducer (h : instantiate e .reducer p = .ok tree) :
    ∃ name f, p.text "name" = some name ∧ Name.isIdentifier name = true ∧ tree.files = [f] ∧
      f.path = within name (e.scriptFile (name ++ "-reducer")) := by
  cases treeOf_of_instantiate h with
  | slice hgiven hname => exact ⟨_, _, hgiven, hname, rfl, rfl⟩
  | component _ _ hasks => cases hasks
  | functions ha => exact absurd ha (by decide)

/-- The store is one file. -/
theorem exists_of_instantiate_store (h : instantiate e .store p = .ok tree) :
    ∃ f, tree.files = [f] ∧ f.path = .ofText (e.scriptFile "store") := by
  cases treeOf_of_instantiate h with
  | store => exact ⟨_, rfl, rfl⟩
  | component _ _ hasks => cases hasks
  | functions ha => exact absurd ha (by decide)

/-- What the template of an archetype adds to a registry when the parameters have passed its checks. -/
inductive EntryOf (p : Parameters) : Archetype → Option RegistryEntry → Prop where
  /-- A screen is listed in the main stack. -/
  | screen {name : String} (hgiven : p.text "name" = some name)
    (hname : Name.isIdentifier name = true) :
    EntryOf p .screen (some (screenEntry .screenRegistry name))
  /-- A screen before sign-in is listed in its stack. -/
  | loginScreen {name : String} (hgiven : p.text "name" = some name)
    (hname : Name.isIdentifier name = true) :
    EntryOf p .loginScreen (some (screenEntry .loginRegistry name))
  /-- A slice belongs in the root reducer. -/
  | slice {name : String} (hgiven : p.text "name" = some name)
    (hname : Name.isIdentifier name = true) : EntryOf p .reducer (some (reducerEntry name))
  /-- Network functions belong in the shared module. -/
  | functions (name : String) (selection : MethodSelection) :
    EntryOf p .apiFunction (some ⟨.apiFunctions, none, networkFunctions name selection⟩)
  /-- Network functions of a screen belong in its module. -/
  | screenFunctions (name : String) (selection : MethodSelection) {screen : String}
    (hscreen : p.text "screen" = some screen) (hident : Name.isIdentifier screen = true) :
    EntryOf p .screenApi (some ⟨.screenApi screen, none, networkFunctions name selection⟩)
  /-- Other artifacts belong in no registry. -/
  | unlisted {a : Archetype} (ha : a ∈ [.component, .store, .apiConfig, .navigation]) :
    EntryOf p a none

/-- Where a template has come to an entry, or to none, its checks have been passed. -/
theorem entryOf_of_registryEntry {entry : Option RegistryEntry} (h : registryEntry a p = .ok entry) :
    EntryOf p a entry := by
  obtain ⟨-, -, h⟩ := exists_of_bind_eq_ok h
  cases a with
  | screen =>
    obtain ⟨name, hname, h⟩ := exists_of_bind_eq_ok h
    obtain ⟨hgiven, hident⟩ := of_identifier hname
    rw [← Except.ok.inj h]
    exact .screen hgiven hident
  | loginScreen =>
    obtain ⟨name, hname, h⟩ := exists_of_bind_eq_ok h
    obtain ⟨hgiven, hident⟩ := of_identifier hname
    rw [← Except.ok.inj h]
    exact .loginScreen hgiven hident
  | reducer =>
    obtain ⟨name, hname, h⟩ := exists_of_bind_eq_ok h
    obtain ⟨hgiven, hident⟩ := of_identifier hname
    rw [← Except.ok.inj h]
    exact .slice hgiven hident
  | apiFunction =>
    obtain ⟨⟨name, selection⟩, -, h⟩ := exists_of_bind_eq_ok h
    rw [← Except.ok.inj h]
    exact .functions name selection
  | screenApi =>
    obtain ⟨⟨name, selection⟩, -, h⟩ := exists_of_bind_eq_ok h
    obtain ⟨screen, hscreen, h⟩ := exists_of_bind_eq_ok h
    obtain ⟨hgiven, hident⟩ := of_identifier hscreen
    rw [← Except.ok.inj h]
    exact .screenFunctions name selection hgiven hident
  | component | store | apiConfig | navigation =>
    rw [← Except.ok.inj h]
    exact .unlisted (by decide)

/-- Not every artifact belongs in a registry. -/
theorem EntryOf.eq_none {entry : Option RegistryEntry} (h : EntryOf p a entry)
    (ha : a ∈ [.component, .store, .apiConfig, .navigation]) : entry = none := by
  cases h with
  | unlisted => rfl
  | screen | loginScreen | slice | functions | screenFunctions => exact absurd ha (by decide)

end Template

namespace Settings

variable {s : Settings} {v : Volume} {root : Path} {r : Request} {tree : FileTree}
  {entry : Option Template.RegistryEntry}

/-- What is prepared for a request is what its template makes, if the screen that it needs is there. -/
theorem prepare_eq_ok_iff : s.prepare v root r = .ok (tree, entry) ↔
    Template.instantiate s.extensions r.archetype r.params = .ok tree ∧
      Template.registryEntry r.archetype r.params = .ok entry ∧ s.checkScreen v root r = .ok () := by
  constructor
  · intro h
    obtain ⟨made, hmade, h⟩ := exists_of_bind_eq_ok h
    obtain ⟨added, hadded, h⟩ := exists_of_bind_eq_ok h
    obtain ⟨⟨⟩, hscreen, h⟩ := exists_of_bind_eq_ok h
    obtain ⟨rfl, rfl⟩ := Prod.mk.inj (Except.ok.inj h)
    exact ⟨hmade, hadded, hscreen⟩
  · rintro ⟨htree, hentry, hscreen⟩
    rw [prepare, htree, hentry, hscreen]
    rfl

/-- What is prepared has been made by its template. -/
theorem instantiate_of_prepare (h : s.prepare v root r = .ok (tree, entry)) :
    Template.instantiate s.extensions r.archetype r.params = .ok tree :=
  (prepare_eq_ok_iff.mp h).1

/-- What a prepared request adds to a registry is told by its template. -/
theorem registryEntry_of_prepare (h : s.prepare v root r = .ok (tree, entry)) :
    Template.registryEntry r.archetype r.params = .ok entry :=
  (prepare_eq_ok_iff.mp h).2.1

end Settings

end AppScaffold
