import AppScaffold.Proofs.Disk.Rewriting
import AppScaffold.Proofs.Project.Acceptance
import AppScaffold.Proofs.Project.Patchable
import Mathlib.Tactic.Common

/-!
# Network functions at once or one after the other

The functions of a resource are appended to a module, each behind an empty line. Asking for all methods
at once leaves the same module as asking for one method after the other, but for the banner: what ends
the last line of the module is written once, before the first function, as every function ends with a
line feed.
-/

namespace AppScaffold

open Volume

/-- What ends the last line of a text: nothing if there is no line, or if a line feed ends it. -/
def Text.ending (text : String) : String :=
  if text = "" ∨ text.toList.getLast? = some '\n' then "" else "\n"

/-- Some line of the text other than the first begins with the words. -/
def Text.BeginsLine (words text : String) : Prop :=
  ∃ front back, text = front ++ "\n" ++ words ++ back

/-- The module of network functions: the shared one, or that of a screen. -/
def Aggregator.functions : Option String → Aggregator
  | none => .apiFunctions
  | some screen => .screenApi screen

/-- The request asks for network functions of a resource, shared ones or those of a screen. -/
structure Request.AsksFor (r : Request) (screen : Option String) (name : String)
    (selection : MethodSelection) : Prop where
  /-- The functions of a screen are an archetype of their own. -/
  archetype : r.archetype = if screen.isSome then .screenApi else .apiFunction
  /-- The screen is given. -/
  screen : ∀ x, screen = some x → r.params.text "screen" = some x
  /-- The resource is given. -/
  name : r.params.text "name" = some name
  /-- The methods are given. -/
  method : ∃ raw, r.params.text "method" = some raw ∧ MethodSelection.ofText? raw = some selection

/-- The screen, if there is one, has a directory. -/
def Settings.HasScreen (s : Settings) (v : Volume) (root : Path) (screen : Option String) : Prop :=
  ∀ x, screen = some x → v.isDir ((root.join s.layout.screensDir).join (.ofText x)) = true

/-- Where the module of network functions is, from the root of a project. -/
def Settings.functionsFile (s : Settings) (screen : Option String) : Path :=
  (Aggregator.functions screen).path s s.layout.reduxDir

/-- The lines of pieces are those of each piece, one after the other. -/
theorem Skeleton.text_flatMap {α : Type} (f : α → List String) (xs : List α) :
    text (xs.flatMap f) = String.join (xs.map fun x => text (f x)) := by
  induction xs with
  | nil => rfl
  | cons x xs ih => rw [List.flatMap_cons, text_append, ih, List.map_cons, String.join_cons]

namespace Template

variable {name : String} {screen : Option String}

/-- The function for one method has no banner. -/
theorem networkFunctions_one (name : String) (m : Method) : networkFunctions name (.one m) =
    Skeleton.text (Skeleton.networkFunction (Name.pascal name) (Name.route name) m) := by
  simp [networkFunctions, MethodSelection.methods]

/-- The function for one method begins on a line of its own. -/
theorem exists_networkFunctions_eq (name : String) (m : Method) :
    ∃ more, networkFunctions name (.one m) =
      "\n" ++ ("export const " ++ m.action ++ Name.pascal name ++ " = async (") ++ more := by
  refine ⟨m.arguments ++ ") => \x7b\n" ++
    Skeleton.text ((Skeleton.networkFunction (Name.pascal name) (Name.route name) m).drop 2), ?_⟩
  simp [networkFunctions_one, Skeleton.networkFunction, Skeleton.text, String.append_assoc]

/-- All functions are those of each method, behind the banner. -/
theorem networkFunctions_all (name : String) :
    networkFunctions name .all = "\n// ======= " ++ name ++ " =======\n" ++
      String.join (Method.all.map fun m => networkFunctions name (.one m)) := by
  have hbanner : Skeleton.text (Skeleton.banner name) = "\n// ======= " ++ name ++ " =======\n" := by
    exact String.toList_injective (by simp [Skeleton.text, Skeleton.banner])
  rw [networkFunctions, if_pos rfl, Skeleton.text_append, MethodSelection.methods,
    Skeleton.text_flatMap, hbanner]
  simp only [networkFunctions_one]

/-- The functions of all methods begin on lines of their own. -/
theorem beginsLine_functions (front : String) {m : Method} (hm : m ∈ Method.all) :
    Text.BeginsLine ("export const " ++ m.action ++ Name.pascal name ++ " = async (")
      (front ++ String.join (Method.all.map fun m => networkFunctions name (.one m))) := by
  obtain ⟨before, after, hsplit⟩ := List.append_of_mem hm
  obtain ⟨more, hmore⟩ := exists_networkFunctions_eq name m
  refine ⟨front ++ String.join (before.map fun m => networkFunctions name (.one m)),
    more ++ String.join (after.map fun m => networkFunctions name (.one m)), ?_⟩
  rw [hsplit, List.map_append, List.map_cons, String.join_append, String.join_cons, hmore]
  simp only [String.append_assoc]

/-- Functions end with a line feed. -/
theorem ending_append_networkFunctions (t name : String) (selection : MethodSelection) :
    Text.ending (t ++ networkFunctions name selection) = "" := by
  have hlast : (networkFunctions name selection).toList.getLast? = some '\n' := by
    refine (Skeleton.text_ends _).resolve_left fun hempty => ?_
    exact networkFunctions_ne_nil name selection (by rw [networkFunctions, hempty]; rfl)
  rw [Text.ending, if_pos (.inr (by rw [String.toList_append, List.getLast?_append, hlast]; rfl))]

end Template

/-- Functions are put behind the end of the last line. -/
theorem Aggregator.withEntry_functions (screen : Option String) (file : Path)
    (fragment text : String) :
    (functions screen).withEntry file ⟨none, fragment⟩ text =
      some (text ++ Text.ending text ++ fragment) := by
  have hanchor : (functions screen).anchor = .fileEnd := by
    cases screen with
    | none | some _ => rfl
  rw [withEntry, hanchor]
  simp only [Script.applyPatch, Script.Anchor.locate, Script.Anchor.parts, Option.map_none,
    Option.map_some, Script.entryBlock, if_true, Script.insertAt, List.take_length, List.drop_length,
    List.append_nil, Option.some.injEq, Text.ending]
  refine String.toList_injective ?_
  by_cases hempty : text = ""
  · simp [hempty]
  · by_cases hlast : text.toList.getLast? = some '\n'
    · simp [hempty, hlast]
    · simp [hempty, hlast]

namespace Settings

variable {s : Settings} {v w : Volume} {root : Path} {screen : Option String} {name t : String}
  {selection : MethodSelection} {r : Request} {ask : MethodSelection → Request}

/-- The module of network functions does not depend on the disk. -/
theorem aggregatorPath_functions (s : Settings) (screen : Option String) (v : Volume) (root : Path) :
    s.aggregatorPath (.functions screen) v root = s.functionsFile screen := by
  cases screen with
  | none | some _ => rfl

section Step

variable (hask : r.AsksFor screen name selection) (hname : Name.isIdentifier name = true)
  (hident : ∀ x, screen = some x → Name.isIdentifier x = true) (hscreen : s.HasScreen v root screen)

include hask hname hident hscreen

/-- A request for network functions has no files, and the functions are its entry. -/
theorem prepare_functions : s.prepare v root r = .ok ({}, some
    ⟨.functions screen, none, Template.networkFunctions name selection⟩) := by
  obtain ⟨raw, hraw, hselection⟩ := hask.method
  have harchetype := hask.archetype
  cases screen with
  | none =>
    obtain ⟨a, p⟩ := r
    obtain rfl : a = .apiFunction := harchetype
    have htarget := Template.networkTarget_eq (a := .apiFunction) hask.name hname hraw hselection
      nofun
    have hentry := Template.registryEntry_apiFunction hask.name hname hraw hselection
    simp only [prepare, Template.instantiate, Archetype.required, Template.checkRequired,
      Template.required_eq hask.name, Template.required_eq hraw, htarget, hentry, checkScreen, bind,
      Except.bind, pure, Except.pure, reduceCtorEq, if_false, Aggregator.functions]
  | some x =>
    obtain ⟨a, p⟩ := r
    obtain rfl : a = .screenApi := harchetype
    have hx := hask.screen x rfl
    have htarget := Template.networkTarget_eq (a := .screenApi) hask.name hname hraw hselection
      fun _ => ⟨x, Template.identifier_eq hx (hident x rfl)⟩
    have hentry := Template.registryEntry_screenApi hask.name hname hraw hselection hx (hident x rfl)
    simp only [prepare, Template.instantiate, Archetype.required, Template.checkRequired,
      Template.required_eq hask.name, Template.required_eq hraw, Template.required_eq hx, htarget, hentry,
      checkScreen, hx, hscreen x rfl, bind, Except.bind, pure, Except.pure, if_true, Aggregator.functions]

/-- What a request for network functions comes to is what comes of adding them to their module. -/
theorem generate_functions : s.generate v root r =
    (.ok ⟨r.archetype, {}, none, some (s.register (.functions screen) v root
        ⟨none, Template.networkFunctions name selection⟩).1⟩,
      (s.register (.functions screen) v root
        ⟨none, Template.networkFunctions name selection⟩).2) :=
  generate_eq_iff.mpr (.registered (prepare_functions hask hname hident hscreen) rfl rfl)

/-- The functions are written behind the text that was read, if they can be written. -/
theorem generate_of_write {seeded : Bool} {result : Except Problem Unit}
    (hread : s.aggregatorText (.functions screen) v root = .ok (t, seeded))
    (hwrite : PatchedFile.write ⟨root.join (s.functionsFile screen),
      t ++ Text.ending t ++ Template.networkFunctions name selection, seeded⟩ v = (result, w)) :
    ∃ o, s.generate v root r = (.ok o, w) ∧ (o.isSuccess = true ↔ result = .ok ()) := by
  have hpatch := patchAggregator_eq hread ⟨none, Template.networkFunctions name selection⟩
  simp only [Aggregator.withEntry_functions, aggregatorPath_functions] at hpatch
  rw [generate_functions hask hname hident hscreen, s.register_eq hpatch, hwrite]
  refine ⟨_, rfl, ?_⟩
  cases result with
  | ok | error _ => simp [Outcome.isSuccess]

/-- Functions are appended to a module that can be read. -/
theorem exists_generate_of_readText (hv : v.IsNested)
    (hread : v.readText (root.join (s.functionsFile screen)) = .ok t) :
    ∃ o w, s.generate v root r = (.ok o, w) ∧ o.isSuccess = true ∧
      Stores v w (root.join (s.functionsFile screen))
        (t ++ Text.ending t ++ Template.networkFunctions name selection) := by
  have htext : s.aggregatorText (.functions screen) v root = .ok (t, false) :=
    aggregatorText_of_readText (by rwa [aggregatorPath_functions])
  obtain ⟨w, hwrite, hstores⟩ := exists_write_of_readText hv ⟨_, _, false⟩ hread
  obtain ⟨o, hgenerate, hsuccess⟩ := generate_of_write hask hname hident hscreen htext hwrite
  exact ⟨o, w, hgenerate, hsuccess.mpr rfl, hstores⟩

/-- Nothing changes where the module cannot be written. -/
theorem exists_generate_of_bars (h : v.Bars (root.join (s.functionsFile screen))) :
    ∃ o, s.generate v root r = (.ok o, v) ∧ o.isSuccess = false := by
  rw [generate_functions hask hname hident hscreen]
  cases hpatch : s.patchAggregator (.functions screen) v root
      ⟨none, Template.networkFunctions name selection⟩ with
  | error e =>
    rw [register_eq_iff.mpr (.unpatched hpatch)]
    exact ⟨_, rfl, rfl⟩
  | ok patched =>
    obtain ⟨hpath, -⟩ := patchAggregator_withEntry hpatch
    rw [aggregatorPath_functions] at hpath
    obtain ⟨e, hwrite⟩ := h patched hpath
    rw [s.register_eq hpatch, hwrite]
    exact ⟨_, rfl, rfl⟩

end Step

/-- A request for functions of a screen that is called no identifier is refused. -/
theorem exists_error_of_screen (hask : r.AsksFor screen name selection) {x : String}
    (hx : screen = some x) (hident : Name.isIdentifier x = false) :
    ∃ e, s.generate v root r = (.error e, v) := by
  obtain ⟨raw, hraw, -⟩ := hask.method
  have hgiven := hask.screen x hx
  have harchetype : r.archetype = .screenApi := by rw [hask.archetype, hx]; rfl
  have hrequired : ∀ parameter ∈ r.archetype.required, ∃ t, r.params.text parameter = some t := by
    rw [harchetype]
    simp [Archetype.required, hask.name, hraw, hgiven]
  have hdecides : Template.Decides r.archetype r.params (s.prepare v root r) (s.Accepts v root r) :=
    prepare_decides hrequired
  obtain ⟨e, he, -⟩ := hdecides.objects fun haccepts => by
    rw [Accepts, harchetype] at haccepts
    obtain ⟨-, -, t, ht, hyes⟩ := haccepts.1
    rw [hgiven] at ht
    rw [← Option.some.inj ht, hident] at hyes
    cases hyes
  exact ⟨e, generate_of_prepare he⟩

/-- All requests succeed, and they leave the text in the file. -/
def Leaves (s : Settings) (v : Volume) (root : Path) (file : Path) (rs : List Request) (t : String) :
    Prop :=
  (∀ result ∈ (s.generateAll v root rs).1, ∃ o, result.2 = .ok o ∧ o.isSuccess = true) ∧
    (s.generateAll v root rs).2.readText file = .ok t

/-- No request succeeds, and they leave the disk as it is said. -/
def Fails (s : Settings) (v : Volume) (root : Path) (rs : List Request) (w : Volume) : Prop :=
  (∀ result ∈ (s.generateAll v root rs).1, ∀ o, result.2 = .ok o → o.isSuccess = false) ∧
    (s.generateAll v root rs).2 = w

/-- A first request that succeeds is followed by the others. -/
theorem Leaves.cons {file : Path} {rs : List Request} {o : Outcome}
    (h : s.generate v root r = (.ok o, w)) (ho : o.isSuccess = true) (hrest : s.Leaves w root file rs t) :
    s.Leaves v root file (r :: rs) t := by
  rw [Leaves, generateAll, h]
  refine ⟨fun result hresult => ?_, hrest.2⟩
  rcases List.mem_cons.mp hresult with rfl | hresult
  · exact ⟨o, rfl, ho⟩
  · exact hrest.1 result hresult

/-- A first request that does not succeed is followed by the others. -/
theorem Fails.cons {rs : List Request} {result : Except Problem Outcome} {u : Volume}
    (h : s.generate v root r = (result, w)) (ho : ∀ o, result = .ok o → o.isSuccess = false)
    (hrest : s.Fails w root rs u) : s.Fails v root (r :: rs) u := by
  rw [Fails, generateAll, h]
  refine ⟨fun other hother => ?_, hrest.2⟩
  rcases List.mem_cons.mp hother with rfl | hother
  · exact ho
  · exact hrest.1 other hother

section Run

variable (hask : ∀ selection, (ask selection).AsksFor screen name selection)
  (hname : Name.isIdentifier name = true)
  (hident : ∀ x, screen = some x → Name.isIdentifier x = true)

include hask hname hident

/-- Requests for functions append them to a module of whole lines, one after the other. -/
theorem leaves_of_readText (hv : v.IsNested) (hscreen : s.HasScreen v root screen)
    (hread : v.readText (root.join (s.functionsFile screen)) = .ok t) (hends : Text.ending t = "")
    (selections : List MethodSelection) :
    s.Leaves v root (root.join (s.functionsFile screen)) (selections.map ask)
      (t ++ String.join (selections.map (Template.networkFunctions name))) := by
  induction selections generalizing v t with
  | nil =>
    rw [List.map_nil, List.map_nil, String.join_nil, String.append_empty]
    exact ⟨List.forall_mem_nil _, hread⟩
  | cons selection selections ih =>
    obtain ⟨o, w, hgenerate, ho, hstores⟩ :=
      exists_generate_of_readText (hask selection) hname hident hscreen hv hread
    have hends' := Template.ending_append_networkFunctions (t ++ Text.ending t) name selection
    have hrest := ih hstores.nested (fun x hx => hstores.isDir _ (hscreen x hx)) hstores.readText hends'
    rw [hends, String.append_empty] at hrest
    rw [List.map_cons, List.map_cons, String.join_cons, ← String.append_assoc]
    exact hrest.cons hgenerate ho

/-- Where the module cannot be written no request for functions succeeds, and nothing changes. -/
theorem fails_of_bars (hscreen : s.HasScreen v root screen)
    (h : v.Bars (root.join (s.functionsFile screen))) (selections : List MethodSelection) :
    s.Fails v root (selections.map ask) v := by
  induction selections with
  | nil => exact ⟨List.forall_mem_nil _, rfl⟩
  | cons selection selections ih =>
    obtain ⟨o, hgenerate, ho⟩ := exists_generate_of_bars (hask selection) hname hident hscreen h
    exact Fails.cons hgenerate (fun o' ho' => by rwa [← Except.ok.inj ho']) ih

/-- Requests for functions append them to the text of the module or to its seed, or none of them
succeeds, as nothing can be written in the place of the module, nor read. -/
theorem leaves_or_fails (hv : v.IsNested) (hscreen : s.HasScreen v root screen) {seeded : Bool}
    (hread : s.aggregatorText (.functions screen) v root = .ok (t, seeded)) :
    (∀ selections, selections ≠ [] →
      s.Leaves v root (root.join (s.functionsFile screen)) (selections.map ask)
        (t ++ Text.ending t ++ String.join (selections.map (Template.networkFunctions name)))) ∨
    ∃ w, v.Unwritable (root.join (s.functionsFile screen)) w ∧
      (∀ text, v.readText (root.join (s.functionsFile screen)) ≠ .ok text) ∧
      (∀ text, w.readText (root.join (s.functionsFile screen)) ≠ .ok text) ∧
      ∀ selections, selections ≠ [] → s.Fails v root (selections.map ask) w := by
  rcases write_uniform hv (root.join (s.functionsFile screen)) with hdone | ⟨w, hgrown, hw, hcause⟩
  · refine .inl fun selections hne => ?_
    obtain ⟨selection, selections, rfl⟩ := List.exists_cons_of_ne_nil hne
    obtain ⟨w, hwrite, hstores⟩ :=
      hdone ⟨_, t ++ Text.ending t ++ Template.networkFunctions name selection, seeded⟩ rfl
    obtain ⟨o, hgenerate, ho⟩ :=
      generate_of_write (hask selection) hname hident hscreen hread hwrite
    have hends := Template.ending_append_networkFunctions (t ++ Text.ending t) name selection
    have hrest := leaves_of_readText hask hname hident hstores.nested
      (fun x hx => hstores.isDir _ (hscreen x hx)) hstores.readText hends selections
    rw [List.map_cons, List.map_cons, String.join_cons, ← String.append_assoc]
    exact hrest.cons hgenerate (ho.mpr rfl)
  · have hbars := hcause.bars hv
    refine .inr ⟨w, hcause, fun text hread => ?_, hbars.readText_ne hw, fun selections hne => ?_⟩
    · obtain ⟨u, hwrite, -⟩ := exists_write_of_readText hv ⟨_, "", true⟩ hread
      obtain ⟨e, he⟩ := hcause.write ⟨_, "", true⟩ rfl
      cases hwrite.symm.trans he
    obtain ⟨selection, selections, rfl⟩ := List.exists_cons_of_ne_nil hne
    obtain ⟨e, hwrite⟩ :=
      hcause.write ⟨_, t ++ Text.ending t ++ Template.networkFunctions name selection, seeded⟩ rfl
    obtain ⟨o, hgenerate, ho⟩ :=
      generate_of_write (hask selection) hname hident hscreen hread hwrite
    have hrest := fails_of_bars hask hname hident (fun x hx => hgrown.isDir (hscreen x hx)) hbars
      selections
    refine Fails.cons hgenerate (fun o' ho' => ?_) hrest
    rw [← Except.ok.inj ho', Bool.eq_false_iff]
    exact fun hyes => by cases ho.mp hyes

end Run

/-- What comes of asking for all functions of a resource at once, and of asking for one after the
other. -/
inductive Concurs (s : Settings) (v : Volume) (root : Path) (screen : Option String) (name : String)
    (ask : MethodSelection → Request) : Prop where
  /-- Both ways lead to the text that was there, or to the seed where nothing was, with the functions
  behind it; only the banner is written the one way and not the other. -/
  | written (before functions : String)
    (previous : v.readText (root.join (s.functionsFile screen)) = .ok before ∨
      v.exists? (root.join (s.functionsFile screen)) = false ∧
        before = Skeleton.text ((Aggregator.functions screen).seed s.layout (s.functionsFile screen)))
    (starts : ∀ m ∈ Method.all, ∀ front, Text.BeginsLine
      ("export const " ++ m.action ++ Name.pascal name ++ " = async (") (front ++ functions))
    (together : s.Leaves v root (root.join (s.functionsFile screen)) [ask .all]
      (before ++ Text.ending before ++ ("\n// ======= " ++ name ++ " =======\n") ++ functions))
    (apart : s.Leaves v root (root.join (s.functionsFile screen)) (Method.all.map (ask ∘ .one))
      (before ++ Text.ending before ++ functions))
  /-- There was no module and none can be written, as its directory cannot be made or no text can be
  written in its place: both ways fail, and they leave the same disk, on which it cannot be read. -/
  | barred (w : Volume) (missing : v.exists? (root.join (s.functionsFile screen)) = false)
    (cause : v.Unwritable (root.join (s.functionsFile screen)) w)
    (together : s.Fails v root [ask .all] w) (apart : s.Fails v root (Method.all.map (ask ∘ .one)) w)
    (unread : ∀ text, w.readText (root.join (s.functionsFile screen)) ≠ .ok text)
  /-- The screen is called no identifier: both ways fail, and nothing changes. -/
  | refused (x : String) (called : screen = some x) (improper : Name.isIdentifier x = false)
    (together : s.Fails v root [ask .all] v) (apart : s.Fails v root (Method.all.map (ask ∘ .one)) v)

/-- Asking for all functions of a resource at once leaves the same module as asking for those of each
method in turn, but for the banner before the first of them. What was in the module, or its seed, comes
first, and each function begins on a line of its own. -/
theorem generate_concurs (hv : v.IsNested) (hname : Name.isIdentifier name = true)
    (hask : ∀ selection, (ask selection).AsksFor screen name selection)
    (hscreen : s.HasScreen v root screen)
    (hmodule : v.exists? (root.join (s.functionsFile screen)) = false ∨
      ∃ t, v.readText (root.join (s.functionsFile screen)) = .ok t) :
    s.Concurs v root screen name ask := by
  by_cases hident : ∀ x, screen = some x → Name.isIdentifier x = true
  · obtain ⟨t, seeded, htext, hprevious⟩ : ∃ t seeded,
        s.aggregatorText (.functions screen) v root = .ok (t, seeded) ∧
        (v.readText (root.join (s.functionsFile screen)) = .ok t ∨
          v.exists? (root.join (s.functionsFile screen)) = false ∧ t =
            Skeleton.text ((Aggregator.functions screen).seed s.layout (s.functionsFile screen))) := by
      rcases hmodule with hmissing | ⟨t, hread⟩
      · refine ⟨_, true, ?_, .inr ⟨hmissing, rfl⟩⟩
        rw [aggregatorText, aggregatorPath_functions, hmissing]
        rfl
      · exact ⟨t, false, aggregatorText_of_readText (by rwa [aggregatorPath_functions]), .inl hread⟩
    rcases leaves_or_fails hask hname hident hv hscreen htext with
      hleaves | ⟨w, hcause, hunread, hunread', hfails⟩
    · refine .written t _ hprevious (fun m hm front => Template.beginsLine_functions front hm) ?_ ?_
      · have htogether := hleaves [.all] (List.cons_ne_nil _ _)
        rwa [List.map_singleton, List.map_singleton, String.join_cons, String.join_nil,
          String.append_empty, Template.networkFunctions_all, ← String.append_assoc] at htogether
      · have hapart := hleaves (Method.all.map .one) (List.cons_ne_nil _ _)
        rwa [List.map_map, List.map_map] at hapart
    · have hmissing := hmodule.resolve_right fun hread => hread.elim hunread
      refine .barred w hmissing hcause (hfails [.all] (List.cons_ne_nil _ _)) ?_ hunread'
      rw [← List.map_map]
      exact hfails _ (List.cons_ne_nil _ _)
  · push Not at hident
    obtain ⟨x, hx, hno⟩ := hident
    rw [← Bool.eq_false_iff] at hno
    have hrefused : ∀ selections, s.Fails v root (List.map ask selections) v := by
      intro selections
      induction selections with
      | nil => exact ⟨List.forall_mem_nil _, rfl⟩
      | cons selection selections ih =>
        obtain ⟨e, he⟩ := exists_error_of_screen (hask selection) hx hno
        exact Fails.cons he (fun o ho => by cases ho) ih
    refine .refused x hx hno (hrefused [.all]) ?_
    rw [← List.map_map]
    exact hrefused _

section Small

-- what is on a small disk is found by following the path
attribute [local simp] Volume.readText Volume.isDir Volume.exists? Volume.find? Volume.mkdirParent
  Volume.mkdirAll Volume.chain Volume.mkdirChain Volume.mkdir Volume.writeFile Volume.set Disk.set
  Disk.get? Disk.locate Disk.walk Disk.steps Disk.bareSteps Disk.endsWithSlash Disk.segmentStep
  Path.parent Path.ofReversed Path.idle Path.isAbsolute Path.empty List.lookup_cons Except.isOk
  Except.toBool

/-- A project with a screen whose module of network functions does not end with a line feed. -/
def openProject : Volume :=
  ⟨⟨[(["src"], .dir), (["src", "Screens"], .dir), (["src", "Screens", "Home"], .dir),
    (["src", "Screens", "Home", "api.js"], .file (.text "// mine"))]⟩, []⟩

/-- Functions of the resource `users` for the screen. -/
def askHome (selection : MethodSelection) : Request :=
  ⟨.screenApi, .ofList
    [("name", .text "users"), ("method", .text selection.text), ("screen", .text "Home")]⟩

/-- Functions of the resource `users` for all screens. -/
def askShared (selection : MethodSelection) : Request :=
  ⟨.apiFunction, .ofList [("name", .text "users"), ("method", .text selection.text)]⟩

/-- The selection is given as the method, by a text that selects it. -/
theorem text_method (selection : MethodSelection) :
    (askHome selection).params.text "method" = some selection.text ∧
      (askShared selection).params.text "method" = some selection.text ∧
      MethodSelection.ofText? selection.text = some selection := by
  cases selection with
  | one m =>
    cases m with
    | _ => decide
  | all => decide

/-- The shared module can be written on an empty disk. -/
theorem not_unwritable_shared (w : Volume) :
    ¬Volume.Unwritable ⟨⟨[]⟩, []⟩ ⟨".", ["src", "Api", "api.functions.js"]⟩ w := by
  have hadmissible : ∀ rest ∈ [["src", "Api", "api.functions.js"], ["src", "Api"], ["src"], []],
      Disk.admissible ⟨".", rest⟩ = .ok () := by decide
  simp only [List.forall_mem_cons] at hadmissible
  have hmade : Volume.mkdirParent ⟨⟨[]⟩, []⟩ ⟨".", ["src", "Api", "api.functions.js"]⟩ =
      (.ok (), ⟨⟨[(["src", "Api"], .dir), (["src"], .dir)]⟩, []⟩) := by
    simp +decide [hadmissible]
  rintro (hbarred | ⟨hpaved, hfails⟩)
  · rw [hmade] at hbarred
    cases hbarred
  · rw [hmade] at hpaved
    cases hpaved
    obtain ⟨e, he⟩ := hfails ""
    revert he
    simp +decide [hadmissible]

/-- The functions of the screen are asked for. -/
theorem asksFor_home (selection : MethodSelection) :
    (askHome selection).AsksFor (some "Home") "users" selection where
  archetype := rfl
  screen x hx := by
    obtain rfl := Option.some.inj hx
    rfl
  name := rfl
  method := ⟨selection.text, (text_method selection).1, (text_method selection).2.2⟩

/-- The functions for all screens are asked for. -/
theorem asksFor_shared (selection : MethodSelection) :
    (askShared selection).AsksFor none "users" selection where
  archetype := rfl
  screen _ hx := nomatch hx
  name := rfl
  method := ⟨selection.text, (text_method selection).2⟩

/-- Both ways functions are written behind the line of a module of a screen that has no end, and behind the
seed of a shared module that is not there. -/
theorem generate_concurs_users :
    (openProject.IsNested ∧
      openProject.readText ((⟨".", []⟩ : Path).join (functionsFile {} (some "Home"))) = .ok "// mine" ∧
      Concurs {} openProject ⟨".", []⟩ (some "Home") "users" askHome) ∧
    Volume.exists? ⟨⟨[]⟩, []⟩ ((⟨".", []⟩ : Path).join (functionsFile {} none)) = false ∧
    Concurs {} ⟨⟨[]⟩, []⟩ ⟨".", []⟩ none "users" askShared ∧
    ∃ functions, Leaves {} ⟨⟨[]⟩, []⟩ ⟨".", []⟩ ((⟨".", []⟩ : Path).join (functionsFile {} none))
        [askShared .all]
        (Skeleton.text (Aggregator.apiFunctions.seed {} (functionsFile {} none)) ++
          "\n// ======= users =======\n" ++ functions) ∧
      Leaves {} ⟨⟨[]⟩, []⟩ ⟨".", []⟩ ((⟨".", []⟩ : Path).join (functionsFile {} none))
        (Method.all.map (askShared ∘ .one))
        (Skeleton.text (Aggregator.apiFunctions.seed {} (functionsFile {} none)) ++ functions) := by
  have hhome : (⟨".", []⟩ : Path).join (functionsFile {} (some "Home")) =
      ⟨".", ["src", "Screens", "Home", "api.js"]⟩ := by decide
  have hshared : (⟨".", []⟩ : Path).join (functionsFile {} none) =
      ⟨".", ["src", "Api", "api.functions.js"]⟩ := by decide
  have hdir : ((⟨".", []⟩ : Path).join (Layout.screensDir {})).join (.ofText "Home") =
      ⟨".", ["src", "Screens", "Home"]⟩ := by decide
  have hadmissible : ∀ rest ∈ [["src", "Screens", "Home", "api.js"], ["src", "Screens", "Home"],
      ["src", "Api", "api.functions.js"]], Disk.admissible ⟨".", rest⟩ = .ok () := by decide
  simp only [List.forall_mem_cons] at hadmissible
  have hnested : openProject.IsNested := ⟨Disk.nested_of_entries (by decide), rfl⟩
  have hempty : Volume.IsNested ⟨⟨[]⟩, []⟩ := ⟨Disk.nested_of_entries (by decide), rfl⟩
  have hread : openProject.readText ((⟨".", []⟩ : Path).join (functionsFile {} (some "Home"))) =
      .ok "// mine" := by
    rw [hhome]
    simp +decide [openProject, hadmissible]
  have hmissing : Volume.exists? ⟨⟨[]⟩, []⟩ ((⟨".", []⟩ : Path).join (functionsFile {} none)) =
      false := by
    rw [hshared]
    simp +decide [hadmissible]
  have hscreen : HasScreen {} openProject ⟨".", []⟩ (some "Home") := by
    intro x hx
    obtain rfl := Option.some.inj hx
    rw [hdir]
    simp +decide [openProject, hadmissible]
  have hconcurs := @generate_concurs {} ⟨⟨[]⟩, []⟩ ⟨".", []⟩ none "users" askShared hempty (by decide)
    asksFor_shared nofun (.inl hmissing)
  refine ⟨⟨hnested, hread, generate_concurs hnested (by decide) asksFor_home hscreen
    (.inr ⟨_, hread⟩)⟩, hmissing, hconcurs, ?_⟩
  cases hconcurs with
  | written before functions previous _ together apart =>
    have hends : Text.ending (Skeleton.text ((Aggregator.functions none).seed {}
        (functionsFile {} none))) = "" := by decide
    rcases previous with hpresent | ⟨-, rfl⟩
    · rw [hshared] at hpresent
      simp +decide [hadmissible] at hpresent
    · rw [hends, String.append_empty] at together apart
      exact ⟨functions, together, apart⟩
  | barred w _ cause =>
    rw [hshared] at cause
    exact absurd cause (not_unwritable_shared w)
  | refused x called => cases called

end Small

end Settings

end AppScaffold
