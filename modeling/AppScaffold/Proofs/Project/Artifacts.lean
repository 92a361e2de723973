import AppScaffold.Proofs.Project.Additions

/-!
# Artifacts of given parameters

What the templates make when the parameters are as they should be: the files of a screen, of a slice
and of the base address, and the entries of screens and slices.
-/

namespace AppScaffold

namespace Template

variable {e : Extensions} {a : Archetype} {p : Parameters} {name : String}

/-- A parameter that is an identifier passes the check. -/
theorem identifier_eq {parameter : String} (hgiven : p.text parameter = some name)
    (hname : Name.isIdentifier name = true) : identifier a p parameter = .ok name := by
  rw [identifier, required, hgiven]
  simp only [bind, Except.bind]
  rw [if_pos hname]

/-- A parameter that is given is all that is required where nothing else is. -/
theorem checkRequired_one {parameter : String} (hgiven : p.text parameter = some name) :
    checkRequired a p [parameter] = .ok () := by
  rw [checkRequired, required, hgiven]
  rfl

/-- A path in a directory that is called after an identifier. -/
theorem within_identifier {file : String} (hname : Name.isIdentifier name = true)
    (hfile : '/' ∉ file.toList) : within name file = ⟨name, [file]⟩ :=
  within_eq (notMem_of_isIdentifier hname).1 (notMem_of_isIdentifier hname).2 hfile

/-- The files of a screen. -/
theorem instantiate_screen (ha : a = .screen ∨ a = .loginScreen)
    (hgiven : p.text "name" = some name) (hname : Name.isIdentifier name = true) :
    instantiate e a p = .ok (componentTree e name "screen" (Skeleton.screen name (Name.title name))
      Skeleton.screenStyles) := by
  have hrequired := checkRequired_one (a := a) hgiven
  have hidentifier := identifier_eq (a := a) hgiven hname
  rcases ha with rfl | rfl
  · simp only [instantiate, Archetype.required, hrequired, screenTree, hidentifier, bind,
      Except.bind]
  · simp only [instantiate, Archetype.required, hrequired, screenTree, hidentifier, bind,
      Except.bind]

/-- The entry of a screen. -/
theorem registryEntry_screen (ha : a = .screen ∨ a = .loginScreen)
    (hgiven : p.text "name" = some name) (hname : Name.isIdentifier name = true) :
    registryEntry a p = .ok (some (screenEntry
      (if a = .screen then .screenRegistry else .loginRegistry) name)) := by
  have hrequired := checkRequired_one (a := a) hgiven
  have hidentifier := identifier_eq (a := a) hgiven hname
  rcases ha with rfl | rfl
  · simp only [registryEntry, Archetype.required, hrequired, hidentifier, bind, Except.bind]
    rfl
  · simp only [registryEntry, Archetype.required, hrequired, hidentifier, bind, Except.bind]
    rfl

/-- The file of a slice, under any extension. -/
theorem instantiate_slice (hgiven : p.text "name" = some name)
    (hname : Name.isIdentifier name = true) :
    instantiate e .reducer p = .ok ⟨[⟨within name (e.scriptFile (name ++ "-reducer")),
      Skeleton.text (Skeleton.reducer (Name.camel name)), name ++ " slice"⟩]⟩ := by
  simp only [instantiate, Archetype.required, checkRequired_one hgiven, reducerTree,
    identifier_eq hgiven hname, bind, Except.bind]
  rfl

/-- The file of a slice. -/
theorem instantiate_reducer (hgiven : p.text "name" = some name)
    (hname : Name.isIdentifier name = true) (hslash : '/' ∉ e.script.toList) :
    instantiate e .reducer p = .ok ⟨[⟨⟨name, [e.scriptFile (name ++ "-reducer")]⟩,
      Skeleton.text (Skeleton.reducer (Name.camel name)), name ++ " slice"⟩]⟩ := by
  rw [instantiate_slice hgiven hname, within_identifier hname]
  simp [Extensions.scriptFile, hslash, (notMem_of_isIdentifier hname).1]

/-- The entry of a slice. -/
theorem registryEntry_reducer (hgiven : p.text "name" = some name)
    (hname : Name.isIdentifier name = true) :
    registryEntry .reducer p = .ok (some (reducerEntry name)) := by
  simp only [registryEntry, Archetype.required, checkRequired_one hgiven,
    identifier_eq hgiven hname, bind, Except.bind]

/-- The file of the base address. -/
theorem instantiate_apiConfig {url : String} (hgiven : p.text "base_url" = some url)
    (hurl : url.toList.any Address.isQuoteOrBackslash = false) (hslash : '/' ∉ e.script.toList) :
    instantiate e .apiConfig p = .ok ⟨[⟨⟨e.scriptFile "api.config", []⟩,
      Skeleton.text (Skeleton.baseAddress (Address.normal url)), "API base address"⟩]⟩ := by
  have hpath : Path.ofText (e.scriptFile "api.config") = ⟨e.scriptFile "api.config", []⟩ := by
    refine Path.ofText_of_notMem ?_
    simp [Extensions.scriptFile, hslash]
  simp only [instantiate, Archetype.required, checkRequired_one hgiven, addressTree, required,
    hgiven, bind, Except.bind]
  rw [hurl, hpath]
  rfl

section Functions

variable {raw screen : String} {selection : MethodSelection} (hgiven : p.text "name" = some name)
  (hname : Name.isIdentifier name = true) (hraw : p.text "method" = some raw)
  (hselection : MethodSelection.ofText? raw = some selection)

include hgiven hname hraw hselection

/-- The name and the methods of network functions, those of a screen being for a screen that is given. -/
theorem networkTarget_eq (hscreen : a = .screenApi → ∃ screen, identifier a p "screen" = .ok screen) :
    networkTarget a p = .ok (name, selection) := by
  simp only [networkTarget, identifier_eq hgiven hname, required_eq hraw, hselection, bind, Except.bind]
  split_ifs with ha
  · obtain ⟨screen, hident⟩ := hscreen ha
    rw [hident]
  · rfl

/-- The functions of a resource belong in the shared module. -/
theorem registryEntry_apiFunction : registryEntry .apiFunction p =
    .ok (some ⟨.apiFunctions, none, networkFunctions name selection⟩) := by
  have htarget := networkTarget_eq (a := .apiFunction) hgiven hname hraw hselection nofun
  simp only [registryEntry, Archetype.required, checkRequired, required_eq hgiven, required_eq hraw,
    htarget, bind, Except.bind]

/-- The functions of a resource for a screen belong in the module of the screen. -/
theorem registryEntry_screenApi (hscreen : p.text "screen" = some screen)
    (hident : Name.isIdentifier screen = true) : registryEntry .screenApi p =
      .ok (some ⟨.screenApi screen, none, networkFunctions name selection⟩) := by
  have hscreen' := identifier_eq (a := .screenApi) hscreen hident
  have htarget := networkTarget_eq hgiven hname hraw hselection fun _ => ⟨screen, hscreen'⟩
  simp only [registryEntry, Archetype.required, checkRequired, required_eq hgiven, required_eq hraw,
    required_eq hscreen, htarget, hscreen', bind, Except.bind]

end Functions

end Template

end AppScaffold
