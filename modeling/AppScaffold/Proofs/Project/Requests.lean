import AppScaffold.CommandLine.Failure
import AppScaffold.Proofs.Dialogue.ArtifactFields
import AppScaffold.Proofs.Disk.Listing
import AppScaffold.Proofs.Project.Acceptance
import AppScaffold.Proofs.Project.Success

/-!
# Requests that were found out are accepted

The machines for single artifacts and the engine check the same things, each for itself. What a machine
finds out is a request that the engine accepts. The screens of network functions are the exception: the
menu offers every directory that is there, and the engine takes only those that are called after an
identifier.
-/

namespace AppScaffold

open Disk

namespace CommandLine

/-- A name that a command takes is an identifier. -/
theorem isIdentifier_of_requireName {given : Option String} {kind name : String}
    (h : requireName given kind = .ok name) : Name.isIdentifier name = true := by
  unfold requireName at h
  dsimp only at h
  split_ifs at h with hempty hname
  rwa [← Except.ok.inj h]

end CommandLine

namespace Answer

/-- The items of a list of identifiers are identifiers. -/
theorem isIdentifier_of_mem_identifierList {raw item : String} {items : List String}
    (h : identifierList raw = .ok items) (hmem : item ∈ items) : Name.isIdentifier item = true := by
  unfold identifierList at h
  generalize ((Text.split ',' raw).map Text.trim).filter (· ≠ "") = found at h
  induction found generalizing items with
  | nil =>
    cases h
    cases hmem
  | cons raw found ih =>
    rw [List.mapM_cons] at h
    obtain ⟨first, hfirst, h⟩ := exists_of_bind_eq_ok h
    obtain ⟨rest, hrest, h⟩ := exists_of_bind_eq_ok h
    rw [← Except.ok.inj h] at hmem
    rcases List.mem_cons.mp hmem with rfl | hmem
    · unfold identifier at hfirst
      dsimp only at hfirst
      split_ifs at hfirst with hident
      rwa [← Except.ok.inj hfirst]
    · exact ih hmem hrest

end Answer

/-- There are no blanks in an identifier. -/
theorem isBlank_of_mem_identifier {s : String} (h : Name.isIdentifier s = true) :
    ∀ c ∈ s.toList, Text.isBlank c = false := by
  intro c hc
  have hplain := (isSegment_of_isIdentifier h).2 c hc
  unfold isReserved at hplain
  simp only [Bool.or_eq_false_iff] at hplain
  exact hplain.2

/-- An identifier is taken as it is given. -/
theorem Parameters.text_of_isIdentifier {p : Parameters} {key s : String}
    (h : p.get? key = some (.text s)) (hs : Name.isIdentifier s = true) : p.text key = some s :=
  text_of_notMem h (Template.notMem_of_isIdentifier hs).2 (isBlank_of_mem_identifier hs)

/-- What a dialogue has found out is its result. -/
theorem Dialogue.result_of_finish {τ α : Type} {d : Dialogue τ α} {t : τ} {a : α}
    (h : d.finish t = .ok a) : d.result t = some a := by
  unfold finish at h
  split at h
  · next found hfound => rw [hfound, Except.ok.inj h]
  · cases h

/-- What holds at the start and is kept by every answer holds of the state at which a machine has found
something out. -/
theorem Machine.Realizes.exists_finish {σ τ α : Type} {m : Machine σ α} {d : Dialogue τ α}
    {Holds : σ → τ → Prop} (h : m.Realizes d Holds) {s : σ} (hs : Holds s d.start) {P : τ → Prop}
    (hstart : P d.start) (hstep : ∀ t raw u, P t → d.answer t raw = .ok u → P u)
    {absent : Question → String} {answers : List String} {a : α}
    (ha : (m.drive absent s answers).result = .ok a) : ∃ t, P t ∧ d.finish t = .ok a := by
  rw [h.drive_eq hs] at ha
  obtain ⟨accepted, t, -, ht, hfinish⟩ := Dialogue.exists_answerAll_of_driveFrom ha
  exact ⟨t, Dialogue.answerAll_induction hstep hstart ht, hfinish⟩

section Found

variable {absent : Question → String} {answers : List String} {name : String} {r : Request}

/-- The registry of a screen is that of the main stack or the one before sign-in. -/
def ScreenDialogue.IsChecked (t : ScreenDialogue) : Prop :=
  ∀ a, t.archetype = some a → a = .screen ∨ a = .loginScreen

/-- The machine for a screen finds out a request for one, in one of the two registries. -/
theorem ScreenMachine.exists_request {start : ScreenDialogue} (hstart : start.IsChecked)
    (h : (screenMachine.drive absent (.ofState name start) answers).result = .ok r) :
    r = .screen name ∨ r = .loginScreen name := by
  have hstep : ∀ t raw u, ScreenDialogue.IsChecked t →
      (screenDialogue name start).answer t raw = .ok u → u.IsChecked := by
    intro t raw u _ hu a ha
    obtain ⟨index, -, hnext⟩ := exists_of_bind_eq_ok (Dialogue.respond_of_answer hu)
    rw [← Except.ok.inj hnext] at ha
    rw [← Option.some.inj ha]
    split_ifs
    · exact .inl rfl
    · exact .inr rfl
  obtain ⟨⟨registries, archetype⟩, hchecked, hfinish⟩ :=
    (realizes name start).exists_finish rfl hstart hstep h
  cases archetype with
  | none => cases hfinish
  | some a =>
    have hr : r = ⟨a, .ofList [("name", .text name)]⟩ := (Except.ok.inj hfinish).symm
    rcases hchecked a rfl with rfl | rfl
    · exact .inl hr
    · exact .inr hr

/-- The elements of a component are identifiers. -/
def ComponentDialogue.IsChecked : ComponentDialogue → Prop
  | .done _ items => ∀ item ∈ items, Name.isIdentifier item = true
  | _ => True

/-- An answer keeps the elements identifiers. -/
theorem ComponentDialogue.IsChecked.respond {t u : ComponentDialogue} {raw : String}
    (h : t.IsChecked) (hu : t.respond raw = .ok u) : u.IsChecked := by
  cases t with
  | variant =>
    simp only [ComponentDialogue.respond] at hu
    cases hvariant : Variant.ofText? raw with
    | none =>
      rw [hvariant] at hu
      cases hu
    | some v =>
      rw [hvariant] at hu
      rw [← Except.ok.inj hu]
      split_ifs
      · trivial
      · exact fun item hitem => absurd hitem List.not_mem_nil
  | wantElements v =>
    obtain ⟨yes, -, hnext⟩ := exists_of_bind_eq_ok hu
    split_ifs at hnext
    · rw [← Except.ok.inj hnext]
      trivial
    · rw [← Except.ok.inj hnext]
      exact fun item hitem => absurd hitem List.not_mem_nil
  | elements v =>
    obtain ⟨items, hitems, hnext⟩ := exists_of_bind_eq_ok hu
    rw [← Except.ok.inj hnext]
    exact fun item => Answer.isIdentifier_of_mem_identifierList hitems
  | done v items => rwa [← Except.ok.inj hu]

/-- The machine for a component finds out a request for one whose elements are identifiers. -/
theorem ComponentMachine.exists_request
    (h : (componentMachine.drive absent (.new name) answers).result = .ok r) :
    ∃ v items, (∀ item ∈ items, Name.isIdentifier item = true) ∧
      ComponentDialogue.request? name (.done v items) = some r := by
  have hstep : ∀ t raw u, ComponentDialogue.IsChecked t →
      (componentDialogue name).answer t raw = .ok u → u.IsChecked := by
    intro t raw u ht hu
    have hrespond : t.respond raw = .ok u := Dialogue.respond_of_answer hu
    exact ht.respond hrespond
  obtain ⟨t, hchecked, hfinish⟩ := (realizes name).exists_finish rfl trivial hstep h
  have hresult := Dialogue.result_of_finish hfinish
  cases t with
  | done v items => exact ⟨v, items, hchecked, hresult⟩
  | _ => cases hresult

/-- The functions that are asked for have a target of a kind, or will have one. -/
def NetworkDialogue.Targets (P : Option String → Prop) : NetworkDialogue → Prop
  | .screen screens => ∀ screen ∈ screens, P (some screen)
  | .method target | .done target _ => P target

/-- An answer keeps the kind of the target. -/
theorem NetworkDialogue.Targets.respond {P : Option String → Prop} {t u : NetworkDialogue}
    {raw : String} (h : t.Targets P) (hu : t.respond raw = .ok u) : u.Targets P := by
  cases t with
  | screen screens =>
    obtain ⟨index, hindex, hnext⟩ := exists_of_bind_eq_ok hu
    obtain ⟨screen, hscreen⟩ := NetworkMachine.exists_of_choice hindex
    rw [← Except.ok.inj hnext, hscreen]
    exact h screen (List.mem_of_getElem? hscreen)
  | method target =>
    simp only [NetworkDialogue.respond] at hu
    cases hmethod : MethodSelection.ofText? raw with
    | none =>
      rw [hmethod] at hu
      cases hu
    | some method =>
      rw [hmethod] at hu
      rwa [← Except.ok.inj hu]
  | done target method => rwa [← Except.ok.inj hu]

/-- The machine for network functions finds out a request for some with a target of the kind. -/
theorem NetworkMachine.exists_request {P : Option String → Prop} {start : NetworkDialogue}
    (hstart : start.Targets P)
    (h : (networkMachine.drive absent (.ofState name [] start) answers).result = .ok r) :
    ∃ target method, P target ∧ NetworkDialogue.request? name (.done target method) = some r := by
  have hstep : ∀ t raw u, NetworkDialogue.Targets P t →
      (networkDialogue name start).answer t raw = .ok u → u.Targets P := by
    intro t raw u ht hu
    have hrespond : t.respond raw = .ok u := Dialogue.respond_of_answer hu
    exact ht.respond hrespond
  obtain ⟨t, htarget, hfinish⟩ := (realizes name start).exists_finish ⟨[], rfl⟩ hstart hstep h
  have hresult := Dialogue.result_of_finish hfinish
  cases t with
  | done target method => exact ⟨target, method, htarget, hresult⟩
  | _ => cases hresult

end Found

namespace Settings

variable {s : Settings} {v : Volume} {root : Path} {r : Request}

/-- A request is accepted exactly if it can be carried out. -/
theorem exists_outcome_iff_accepts :
    (∃ o, (s.generate v root r).1 = .ok o) ↔ s.Accepts v root r := by
  have hprepared : (∃ tree entry, s.prepare v root r = .ok (tree, entry)) ↔
      ∃ prepared, s.prepare v root r = .ok prepared := by simp
  rw [exists_outcome_iff, hprepared]
  constructor
  · rintro ⟨prepared, hprepare⟩
    refine (prepare_decides (exists_text_of_find? ?_)).exists_iff.mp ⟨prepared, hprepare⟩
    by_contra hfind
    obtain ⟨parameter, hfind⟩ := Option.ne_none_iff_exists'.mp hfind
    rw [prepare_of_missing hfind] at hprepare
    cases hprepare
  · intro haccepts
    exact (prepare_decides haccepts.1.given).passes haccepts

/-- A request for a screen is accepted. -/
theorem accepts_screen {name : String} (hname : Name.isIdentifier name = true)
    (hr : r = .screen name ∨ r = .loginScreen name) : s.Accepts v root r := by
  have hgiven := Request.text_name hname
  rcases hr with rfl | rfl
  · exact ⟨⟨name, hgiven, hname⟩, nofun⟩
  · exact ⟨⟨name, hgiven, hname⟩, nofun⟩

/-- A request for a component whose elements are identifiers is accepted. -/
theorem accepts_component {name : String} (hname : Name.isIdentifier name = true) {w : Variant}
    {items : List String} (hitems : ∀ item ∈ items, Name.isIdentifier item = true)
    (hr : ComponentDialogue.request? name (.done w items) = some r) : s.Accepts v root r := by
  obtain rfl := Option.some.inj hr
  have hvariant : Name.isIdentifier w.name = true ∧ w ∈ Variant.all ∧
      Text.sameUpToCase w.name w.name = true := by
    cases w <;> decide
  generalize hp : Parameters.ofList ([("name", .text name), ("variant", .text w.name)] ++
    if items.isEmpty then [] else [("elements", .list items)]) = p
  have hlist : p.get? "name" = some (.text name) ∧ p.get? "variant" = some (.text w.name) ∧
      p.list "elements" = items := by
    subst hp
    cases items with
    | nil => exact ⟨rfl, rfl, rfl⟩
    | cons item items => exact ⟨rfl, rfl, rfl⟩
  refine ⟨⟨⟨name, Parameters.text_of_isIdentifier hlist.1 hname, hname⟩, ⟨w.name, ?_, w, hvariant.2⟩,
    ?_⟩, nofun⟩
  · exact Parameters.text_of_isIdentifier hlist.2.1 hvariant.1
  · rwa [hlist.2.2]

/-- A request for network functions has a name and a method that are accepted. -/
theorem gives_network {name : String} (hname : Name.isIdentifier name = true) {p : Parameters}
    {method : MethodSelection} (hgiven : p.get? "name" = some (.text name))
    (hmethod : p.get? "method" = some (.text method.text)) :
    Template.GivesIdentifier p "name" ∧ Template.GivesMethod p := by
  have hknown : Name.isIdentifier method.text = true ∧
      Text.lowercase method.text ∈ ["get", "post", "put", "delete", "all"] := by
    cases method with
    | one m => cases m <;> decide
    | all => decide
  exact ⟨⟨name, Parameters.text_of_isIdentifier hgiven hname, hname⟩,
    method.text, Parameters.text_of_isIdentifier hmethod hknown.1, hknown.2⟩

/-- A request for shared network functions is accepted. -/
theorem accepts_shared {name : String} (hname : Name.isIdentifier name = true)
    {method : MethodSelection}
    (hr : NetworkDialogue.request? name (.done none method) = some r) : s.Accepts v root r := by
  obtain rfl := Option.some.inj hr
  exact ⟨gives_network hname rfl rfl, nofun⟩

/-- A request for network functions of a screen is accepted exactly if the screen is called after an
identifier and has a directory. -/
theorem accepts_screenNetwork_iff {name screen : String} (hname : Name.isIdentifier name = true)
    {method : MethodSelection}
    (hr : NetworkDialogue.request? name (.done (some screen) method) = some r) :
    s.Accepts v root r ↔ Name.isIdentifier (Text.trim screen) = true ∧
      v.isDir ((root.join s.layout.screensDir).join ⟨Text.trim screen, []⟩) = true := by
  generalize hp : Parameters.ofList ([("name", .text name), ("method", .text method.text)] ++
    [("screen", .text screen)]) = p
  obtain rfl : ⟨.screenApi, p⟩ = r := by
    subst hp
    exact Option.some.inj hr
  have hgives : Template.GivesIdentifier p "name" ∧ Template.GivesMethod p := by
    subst hp
    exact gives_network hname rfl rfl
  have htext : p.text "screen" =
      if Text.trim screen = "" then none else some (Text.trim screen) := by
    subst hp
    rfl
  have hofText : Name.isIdentifier (Text.trim screen) = true →
      Path.ofText (Text.trim screen) = ⟨Text.trim screen, []⟩ := fun h =>
    Path.ofText_of_notMem (Template.notMem_of_isIdentifier h).1
  constructor
  · rintro ⟨⟨-, -, t, ht, hident⟩, hdir⟩
    obtain ⟨t', ht', hdir⟩ := hdir rfl
    obtain rfl := Option.some.inj (ht.symm.trans ht')
    rw [htext] at ht
    split_ifs at ht
    obtain rfl := Option.some.inj ht
    rw [hofText hident] at hdir
    exact ⟨hident, hdir⟩
  · rintro ⟨hident, hdir⟩
    rw [← hofText hident] at hdir
    have hgiven : p.text "screen" = some (Text.trim screen) := by
      rw [htext, if_neg (Template.notMem_of_isIdentifier hident).2]
    exact ⟨⟨hgives.1, hgives.2, _, hgiven, hident⟩, fun _ => ⟨_, hgiven, hdir⟩⟩

/-- A screen that is called after an identifier has a directory that can be reached unless its path is
too long. -/
theorem isDir_screen_iff (hdisk : v.disk.IsProper) {screen : String}
    (hmem : screen ∈ s.layout.existingScreens v root) (hident : Name.isIdentifier screen = true) :
    v.isDir ((root.join s.layout.screensDir).join ⟨screen, []⟩) = true ↔
      ((root.join s.layout.screensDir).join ⟨screen, []⟩).text.utf8ByteSize < pathLimit := by
  constructor
  · exact Volume.short_of_isDir
  · intro hshort
    obtain ⟨loc, hlocate, -, -⟩ := Volume.exists_of_mem_directoriesIn hmem
    have hadmissible := (Path.IsPassable.of_locate hlocate).admissible
    refine Volume.isDir_join_of_mem hdisk hmem (isSegment_of_isIdentifier hident).1.step ?_
    refine Path.admissible_join_segment hadmissible (fun c hc => ?_) hshort
    exact (ne_of_isIdentifierTail (Script.isIdentifierTail_of_mem hident hc)).2.2

/-- What a machine for an artifact finds out about an unchanged project is a request that is accepted,
unless it is for the functions of a screen. Such a request is accepted if the directory of the screen
is called after an identifier and its path is not too long; if the name without the blanks around it is
no identifier, the request is refused. -/
theorem generate_of_drive (s : Settings) (v : Volume) (root : Path) (hdisk : v.disk.IsProper)
    {given : Option String} {kind name : String}
    (hname : CommandLine.requireName given kind = .ok name) (absent : Question → String)
    (answers : List String) :
    (∀ r, (screenMachine.drive absent (.new name s.layout v root) answers).result = .ok r →
      ∃ o, (s.generate v root r).1 = .ok o) ∧
    (∀ r, (screenMachine.drive absent (.login name) answers).result = .ok r →
      ∃ o, (s.generate v root r).1 = .ok o) ∧
    (∀ r, (componentMachine.drive absent (.new name) answers).result = .ok r →
      ∃ o, (s.generate v root r).1 = .ok o) ∧
    (∀ r, (networkMachine.drive absent (.shared name) answers).result = .ok r →
      ∃ o, (s.generate v root r).1 = .ok o) ∧
    ∀ m, NetworkMachine.forScreen name s.layout v root = .ok m →
      ∀ r, (networkMachine.drive absent m answers).result = .ok r →
        ∃ screen ∈ s.layout.existingScreens v root,
          r.params.get? "screen" = some (.text screen) ∧
          (Name.isIdentifier screen = true →
            ((∃ o, (s.generate v root r).1 = .ok o) ↔
              ((root.join s.layout.screensDir).join ⟨screen, []⟩).text.utf8ByteSize < pathLimit)) ∧
          (Name.isIdentifier (Text.trim screen) = false →
            ∃ e, s.generate v root r = (.error e, v)) := by
  have hident := CommandLine.isIdentifier_of_requireName hname
  have hrefused : ∀ r, ¬s.Accepts v root r → ∃ e, s.generate v root r = (.error e, v) := by
    intro r hr
    cases hresult : (s.generate v root r).1 with
    | ok o => exact absurd (exists_outcome_iff_accepts.mp ⟨o, hresult⟩) hr
    | error e => exact ⟨e, Prod.ext hresult (volume_of_refused hresult)⟩
  simp only [exists_outcome_iff_accepts]
  refine ⟨fun r hr => ?_, fun r hr => ?_, fun r hr => ?_, fun r hr => ?_, fun m hm r hr => ?_⟩
  · rw [ScreenMachine.new_eq] at hr
    refine accepts_screen hident (ScreenMachine.exists_request (fun a ha => ?_) hr)
    unfold ScreenDialogue.start at ha
    split_ifs at ha
    · exact .inl (Option.some.inj ha).symm
  · have hlogin : ScreenMachine.login name = .ofState name .login := rfl
    rw [hlogin] at hr
    refine accepts_screen hident (ScreenMachine.exists_request (fun a ha => ?_) hr)
    exact .inr (Option.some.inj ha).symm
  · obtain ⟨w, items, hitems, hrequest⟩ := ComponentMachine.exists_request hr
    exact accepts_component hident hitems hrequest
  · have hstart : NetworkDialogue.Targets (· = none) (.method none) := rfl
    obtain ⟨target, method, rfl, hrequest⟩ := NetworkMachine.exists_request hstart hr
    exact accepts_shared hident hrequest
  · obtain ⟨-, rfl⟩ := NetworkMachine.forScreen_eq_ok hm
    have hstart : NetworkDialogue.Targets
        (fun target => ∃ screen ∈ s.layout.existingScreens v root, target = some screen)
        (.screen (s.layout.existingScreens v root)) := fun screen hmem => ⟨screen, hmem, rfl⟩
    obtain ⟨_, method, ⟨screen, hmem, rfl⟩, hrequest⟩ := NetworkMachine.exists_request hstart hr
    have hiff : s.Accepts v root r ↔ _ := accepts_screenNetwork_iff hident hrequest
    refine ⟨screen, hmem, ?_, fun hscreen => ?_, fun hscreen => ?_⟩
    · rw [← Option.some.inj hrequest]
      rfl
    · rw [hiff, Text.trim_of_notMem (isBlank_of_mem_identifier hscreen),
        isDir_screen_iff hdisk hmem hscreen]
      exact and_iff_right hscreen
    · refine hrefused r fun haccepts => ?_
      rw [(hiff.mp haccepts).1] at hscreen
      cases hscreen

/-- A project whose screens are called `Cart` and `user-profile`. -/
def cartAndProfile : Volume :=
  ⟨⟨[(["src", "Screens", "Cart"], .dir), (["src", "Screens", "user-profile"], .dir),
    (["src", "Screens"], .dir), (["src"], .dir)]⟩, []⟩

/-- The machine for the functions of one of these screens. -/
def usersOfScreen : NetworkMachine :=
  { archetype := .screenApi, name := "users", screens := ["Cart", "user-profile"], step := .screen }

/-- The functions of `Cart` are accepted, and those of `user-profile` are refused. -/
theorem generate_of_drive_cart :
    cartAndProfile.disk.IsProper ∧ CommandLine.requireName (some " users") "API" = .ok "users" ∧
    NetworkMachine.forScreen "users" {} cartAndProfile ⟨".", []⟩ = .ok usersOfScreen ∧
    (∃ r, (networkMachine.drive Dialogue.noScriptedAnswer usersOfScreen
        ["cart", "get"]).result = .ok r ∧
      ∃ o, (Settings.generate {} cartAndProfile ⟨".", []⟩ r).1 = .ok o) ∧
    ∃ r, (networkMachine.drive Dialogue.noScriptedAnswer usersOfScreen
        ["user-profile", "get"]).result = .ok r ∧
      ∃ e, Settings.generate {} cartAndProfile ⟨".", []⟩ r = (.error e, cartAndProfile) := by
  have hdisk : cartAndProfile.disk.IsProper := ⟨by decide, by decide⟩
  have hname : CommandLine.requireName (some " users") "API" = .ok "users" := by decide
  have hscreens : ({} : Layout).existingScreens cartAndProfile ⟨".", []⟩ =
      ["Cart", "user-profile"] := by
    have hadmissible : Disk.admissible ⟨".", ["src", "Screens"]⟩ = .ok () := by decide
    refine Volume.directoriesIn_of_locate ["src", "Screens"] ?_ rfl rfl (by decide)
    simp +decide [cartAndProfile, Disk.locate, hadmissible, Disk.walk, Disk.steps, Disk.bareSteps,
      Disk.segmentStep, Path.join, Disk.get?, List.lookup_cons]
  have hmachine : NetworkMachine.forScreen "users" {} cartAndProfile ⟨".", []⟩ =
      .ok usersOfScreen := by
    rw [NetworkMachine.forScreen, hscreens]
    rfl
  have hrequest : ∀ screen raw, (screen, raw) ∈ [("Cart", "cart"), ("user-profile", "user-profile")] →
      (networkMachine.drive Dialogue.noScriptedAnswer usersOfScreen [raw, "get"]).result =
        .ok ⟨.screenApi, .ofList
          [("name", .text "users"), ("method", .text "get"), ("screen", .text screen)]⟩ := by
    intro screen raw hmem
    simp only [List.mem_cons, Prod.mk.injEq, List.not_mem_nil, or_false] at hmem
    rcases hmem with ⟨rfl, rfl⟩ | ⟨rfl, rfl⟩
    · rfl
    · rfl
  refine ⟨hdisk, hname, hmachine, ⟨_, hrequest "Cart" "cart" (by decide), ?_⟩,
    ⟨_, hrequest "user-profile" "user-profile" (by decide), ?_⟩⟩
  · obtain ⟨screen, -, hscreen, haccepted, -⟩ := (generate_of_drive {} cartAndProfile ⟨".", []⟩ hdisk
      hname Dialogue.noScriptedAnswer ["cart", "get"]).2.2.2.2 _ hmachine _
        (hrequest "Cart" "cart" (by decide))
    obtain rfl : "Cart" = screen := Value.text.inj (Option.some.inj hscreen)
    exact (haccepted (by decide)).mpr (by decide)
  · obtain ⟨screen, -, hscreen, -, hrefused⟩ := (generate_of_drive {} cartAndProfile ⟨".", []⟩ hdisk
      hname Dialogue.noScriptedAnswer ["user-profile", "get"]).2.2.2.2 _ hmachine _
        (hrequest "user-profile" "user-profile" (by decide))
    obtain rfl : "user-profile" = screen := Value.text.inj (Option.some.inj hscreen)
    exact hrefused (by decide)

end Settings

end AppScaffold
