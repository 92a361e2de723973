import AppScaffold.Dialogue.Machine.Artifact
import AppScaffold.Proofs.Dialogue.ProjectFields
import AppScaffold.Proofs.Disk.Listing

/-!
# The fields of the machines for single artifacts

The fields hold the states of the dialogues about screens, components and network functions. With the
machine for a new project, all machines are orderly: a refused answer leaves no trace in any of them.
-/

namespace AppScaffold

/-- What has no question refuses to be answered. -/
theorem Dialogue.question_ne_none {τ α : Type} {d : Dialogue τ α} {t u : τ} {raw : String}
    (h : d.answer t raw = .ok u) : d.question t ≠ none := by
  intro hnone
  unfold answer at h
  rw [hnone] at h
  cases h

namespace ScreenMachine

variable {name : String}

/-- The fields that hold a state. -/
def ofState (name : String) (t : ScreenDialogue) : ScreenMachine := ⟨name, t.registries, t.archetype⟩

/-- An answer writes into the fields what it adds to the state that they hold; if it is refused, all
fields stay as they are. -/
theorem run_answer (name raw : String) (start t : ScreenDialogue) :
    (answer raw).run (ofState name t) =
      match (screenDialogue name start).answer t raw with
      | .ok u => .ok () (ofState name u)
      | .error e => .error e (ofState name t) := by
  obtain ⟨registries, archetype⟩ := t
  cases archetype with
  | some a =>
    simp [answer, question, ofState, screenDialogue, Dialogue.answer, ScreenDialogue.question,
      Machine.unfinished, Dialogue.unfinished]
  | none =>
    cases h : Answer.choice raw registries with
    | ok index =>
      simp [answer, question, ofState, screenDialogue, Dialogue.answer, ScreenDialogue.question,
        ScreenDialogue.respond, h]
    | error objection =>
      simp [answer, question, ofState, screenDialogue, Dialogue.answer, ScreenDialogue.question,
        ScreenDialogue.respond, h]

/-- The machine for a screen realizes the dialogue about one. -/
theorem realizes (name : String) (start : ScreenDialogue) :
    screenMachine.Realizes (screenDialogue name start) fun m t => m = ofState name t where
  question := by
    rintro m t rfl
    rfl
  accept := by
    rintro m t u raw rfl haccept
    have hrun := run_answer name raw start t
    rw [haccept] at hrun
    exact ⟨ofState name u, hrun, rfl⟩
  refuse := by
    rintro m t e raw rfl hrefuse
    have hrun := run_answer name raw start t
    rwa [hrefuse] at hrun
  finish := by
    rintro m ⟨registries, archetype⟩ rfl
    cases archetype <;> rfl

/-- The question about the registry does not come back. -/
theorem advances (name : String) (start : ScreenDialogue) :
    (screenDialogue name start).Advances fun t => t.archetype.isSome.toNat where
  rises {t u raw} h := by
    obtain ⟨registries, archetype⟩ := t
    cases archetype with
    | some a => exact absurd rfl (Dialogue.question_ne_none h)
    | none =>
      obtain ⟨index, -, hnext⟩ := exists_of_bind_eq_ok (Dialogue.respond_of_answer h)
      rw [← Except.ok.inj hnext]
      exact Nat.one_pos
  same {t u q} ht hu := by
    have hopen : ∀ {t : ScreenDialogue}, t.question = some q → t.archetype = none := by
      intro t ht
      unfold ScreenDialogue.question at ht
      split_ifs at ht with h
      exact h
    rw [hopen ht, hopen hu]

/-- The machine begins where the dialogue does. -/
theorem new_eq (name : String) (layout : Layout) (v : Volume) (root : Path) :
    new name layout v root = ofState name (.start layout v root) := by
  unfold new ofState ScreenDialogue.start
  split_ifs <;> rfl

end ScreenMachine

namespace ComponentMachine

/-- The fields that hold a state. -/
def ofState (name : String) : ComponentDialogue → ComponentMachine
  | .variant => { name }
  | .wantElements v => { name, step := .wantElements, variant := some v }
  | .elements v => { name, step := .elements, variant := some v }
  | .done v elements => { name, step := .done, variant := some v, elements }

section Answering

attribute [local simp] componentDialogue Dialogue.answer ComponentDialogue.question
  ComponentDialogue.respond ComponentStep.question ofState take

/-- An answer writes into the fields what it adds to the state that they hold; if it is refused, all
fields stay as they are. -/
theorem run_answer (name raw : String) (t : ComponentDialogue) :
    (answer raw).run (ofState name t) =
      match (componentDialogue name).answer t raw with
      | .ok u => .ok () (ofState name u)
      | .error e => .error e (ofState name t) := by
  unfold answer
  cases t with
  | variant =>
    cases h : Variant.ofText? raw with
    | some v => cases hslot : v.hasSlot <;> simp [-bind_pure_comp, h, hslot]
    | none => simp [-bind_pure_comp, h]
  | wantElements v =>
    cases h : Answer.yesNo raw false with
    | ok yes => cases yes <;> simp [-bind_pure_comp, h]
    | error objection => simp [-bind_pure_comp, h]
  | elements v =>
    cases h : Answer.identifierList raw with
    | ok elements => simp [-bind_pure_comp, h]
    | error objection => simp [-bind_pure_comp, h]
  | done v elements => simp [Machine.unfinished, Dialogue.unfinished]

end Answering

/-- The machine for a component realizes the dialogue about one. -/
theorem realizes (name : String) :
    componentMachine.Realizes (componentDialogue name) fun m t => m = ofState name t where
  question := by
    rintro m t rfl
    cases t <;> rfl
  accept := by
    rintro m t u raw rfl haccept
    have hrun := run_answer name raw t
    rw [haccept] at hrun
    exact ⟨ofState name u, hrun, rfl⟩
  refuse := by
    rintro m t e raw rfl hrefuse
    have hrun := run_answer name raw t
    rwa [hrefuse] at hrun
  finish := by
    rintro m t rfl
    cases t <;> rfl

/-- How far a state is from the beginning. -/
def rank : ComponentDialogue → Nat
  | .variant => 0
  | .wantElements _ => 1
  | .elements _ => 2
  | .done .. => 3

/-- The questions about a component do not come back. -/
theorem advances (name : String) : (componentDialogue name).Advances rank where
  rises {t u raw} h := by
    have hrespond : t.respond raw = .ok u := Dialogue.respond_of_answer h
    cases t with
    | variant =>
      simp only [ComponentDialogue.respond] at hrespond
      cases hvariant : Variant.ofText? raw with
      | none =>
        rw [hvariant] at hrespond
        cases hrespond
      | some v =>
        rw [hvariant] at hrespond
        rw [← Except.ok.inj hrespond]
        split_ifs
        · exact Nat.one_pos
        · exact Nat.succ_pos 2
    | wantElements v =>
      obtain ⟨yes, -, hnext⟩ := exists_of_bind_eq_ok hrespond
      split_ifs at hnext
      · rw [← Except.ok.inj hnext]
        exact Nat.one_lt_two
      · rw [← Except.ok.inj hnext]
        exact Nat.lt_succ_of_lt Nat.one_lt_two
    | elements v =>
      obtain ⟨elements, -, hnext⟩ := exists_of_bind_eq_ok hrespond
      rw [← Except.ok.inj hnext]
      exact Nat.lt_succ_self 2
    | done v elements => exact absurd rfl (Dialogue.question_ne_none h)
  same {t u q} ht hu := by
    have heq : t.question = u.question := Eq.trans ht hu.symm
    have hasked : t.question ≠ none := Option.ne_none_iff_exists'.mpr ⟨q, ht⟩
    cases t <;> cases u <;> simp [ComponentDialogue.question, rank] at heq hasked ⊢

end ComponentMachine

namespace NetworkMachine

/-- The fields that hold a state; `screens` is what is left of the screens between which there was a
choice. -/
def ofState (name : String) (screens : List String) : NetworkDialogue → NetworkMachine
  | .screen screens => { archetype := .screenApi, name, screens, step := .screen }
  | .method none => { archetype := .apiFunction, name, screens := [], step := .method }
  | .method (some screen) =>
    { archetype := .screenApi, name, screens, step := .method, screen := some screen }
  | .done none method =>
    { archetype := .apiFunction, name, screens := [], step := .done, method := some method }
  | .done (some screen) method =>
    { archetype := .screenApi, name, screens, step := .done, screen := some screen,
      method := some method }

/-- A number that is chosen is the place of an entry in the menu. -/
theorem exists_of_choice {raw : String} {choices : List String} {index : Nat}
    (h : Answer.choice raw choices = .ok index) : ∃ choice, choices[index]? = some choice := by
  unfold Answer.choice at h
  split at h
  · next i hi =>
    rw [← Except.ok.inj h]
    exact ⟨_, List.getElem?_eq_getElem (List.findIdx?_eq_some_iff_findIdx_eq.mp hi).1⟩
  · cases h

section Answering

attribute [local simp] networkDialogue Dialogue.answer NetworkDialogue.question
  NetworkDialogue.respond NetworkMachine.question ofState take

/-- An answer writes into the fields what it adds to the state that they hold; if it is refused, all
fields stay as they are. -/
theorem exists_run_answer (name raw : String) (start t : NetworkDialogue) (screens : List String) :
    ∃ left, (answer raw).run (ofState name screens t) =
      match (networkDialogue name start).answer t raw with
      | .ok u => .ok () (ofState name left u)
      | .error e => .error e (ofState name screens t) := by
  unfold answer
  cases t with
  | screen choices =>
    refine ⟨choices, ?_⟩
    cases h : Answer.choice raw choices with
    | ok index =>
      obtain ⟨screen, hscreen⟩ := exists_of_choice h
      simp [-bind_pure_comp, h, hscreen]
    | error objection => simp [-bind_pure_comp, h]
  | method target =>
    refine ⟨screens, ?_⟩
    cases h : MethodSelection.ofText? raw with
    | some method => cases target <;> simp [-bind_pure_comp, h]
    | none => cases target <;> simp [-bind_pure_comp, h]
  | done target method =>
    refine ⟨screens, ?_⟩
    cases target <;> simp [Machine.unfinished, Dialogue.unfinished]

end Answering

/-- The machine for network functions realizes the dialogue about them. -/
theorem realizes (name : String) (start : NetworkDialogue) :
    networkMachine.Realizes (networkDialogue name start)
      fun m t => ∃ screens, m = ofState name screens t where
  question := by
    rintro m t ⟨screens, rfl⟩
    rcases t with choices | (_ | screen) | ⟨_ | screen, method⟩ <;> rfl
  accept := by
    rintro m t u raw ⟨screens, rfl⟩ haccept
    obtain ⟨left, hrun⟩ := exists_run_answer name raw start t screens
    rw [haccept] at hrun
    exact ⟨ofState name left u, hrun, left, rfl⟩
  refuse := by
    rintro m t e raw ⟨screens, rfl⟩ hrefuse
    obtain ⟨left, hrun⟩ := exists_run_answer name raw start t screens
    rwa [hrefuse] at hrun
  finish := by
    rintro m t ⟨screens, rfl⟩
    rcases t with choices | (_ | screen) | ⟨_ | screen, method⟩ <;> rfl

/-- How far a state is from the beginning. -/
def rank : NetworkDialogue → Nat
  | .screen _ => 0
  | .method _ => 1
  | .done .. => 2

/-- The questions about network functions do not come back. -/
theorem advances (name : String) (start : NetworkDialogue) :
    (networkDialogue name start).Advances rank where
  rises {t u raw} h := by
    have hrespond : t.respond raw = .ok u := Dialogue.respond_of_answer h
    cases t with
    | screen choices =>
      obtain ⟨index, -, hnext⟩ := exists_of_bind_eq_ok hrespond
      rw [← Except.ok.inj hnext]
      exact Nat.one_pos
    | method target =>
      simp only [NetworkDialogue.respond] at hrespond
      cases hmethod : MethodSelection.ofText? raw with
      | none =>
        rw [hmethod] at hrespond
        cases hrespond
      | some method =>
        rw [hmethod] at hrespond
        rw [← Except.ok.inj hrespond]
        exact Nat.one_lt_two
    | done target method => exact absurd rfl (Dialogue.question_ne_none h)
  same {t u q} ht hu := by
    have heq : t.question = u.question := Eq.trans ht hu.symm
    have hasked : t.question ≠ none := Option.ne_none_iff_exists'.mpr ⟨q, ht⟩
    cases t <;> cases u <;> simp [NetworkDialogue.question, rank] at heq hasked ⊢

/-- The machine for the functions of one screen begins with a question if there is a screen. -/
theorem forScreen_eq_ok {name : String} {layout : Layout} {v : Volume} {root : Path}
    {m : NetworkMachine} (h : forScreen name layout v root = .ok m) :
    layout.existingScreens v root ≠ [] ∧
      m = ofState name [] (.screen (layout.existingScreens v root)) := by
  unfold forScreen at h
  cases hscreens : layout.existingScreens v root with
  | nil =>
    rw [hscreens] at h
    cases h
  | cons screen screens =>
    rw [hscreens] at h
    exact ⟨List.cons_ne_nil screen screens, (Except.ok.inj h).symm⟩

end NetworkMachine

/-- In all machines a refused answer leaves no trace: all fields stay as they are, no question is put
more than three times, the answers that were refused can be left out of a run that ends well, and a run
that ends with a refused answer has refused three in a row. -/
theorem machines_isOrderly (features : Features) (layout : Layout) (name : String) (v : Volume)
    (root : Path) :
    projectMachine.IsOrderly (.new features layout) ∧
    screenMachine.IsOrderly (.new name layout v root) ∧
    screenMachine.IsOrderly (.login name) ∧
    componentMachine.IsOrderly (.new name) ∧
    networkMachine.IsOrderly (.shared name) ∧
    ∀ m, NetworkMachine.forScreen name layout v root = .ok m → networkMachine.IsOrderly m := by
  have hproject := (ProjectMachine.realizes features layout).isOrderly
    (ProjectMachine.advances features layout) (ProjectMachine.holds_new features layout)
  have hscreen : ∀ start, screenMachine.IsOrderly (.ofState name start) := fun start =>
    (ScreenMachine.realizes name start).isOrderly (ScreenMachine.advances name start) rfl
  have hcomponent := (ComponentMachine.realizes name).isOrderly (ComponentMachine.advances name) rfl
  have hnetwork : ∀ start, networkMachine.IsOrderly (.ofState name [] start) := fun start =>
    (NetworkMachine.realizes name start).isOrderly (NetworkMachine.advances name start) ⟨[], rfl⟩
  refine ⟨hproject, ?_, hscreen .login, hcomponent, hnetwork (.method none), ?_⟩
  · rw [ScreenMachine.new_eq]
    exact hscreen _
  · intro m hm
    rw [(NetworkMachine.forScreen_eq_ok hm).2]
    exact hnetwork _

/-- The machine for the functions of one screen, where the screens are Cart and Home. -/
theorem machines_isOrderly_cart :
    NetworkMachine.forScreen "users" {} ⟨⟨[(["src", "Screens", "Cart"], .dir),
      (["src", "Screens", "Home"], .dir), (["src", "Screens"], .dir), (["src"], .dir)]⟩, []⟩ ⟨".", []⟩ =
        .ok { archetype := .screenApi, name := "users", screens := ["Cart", "Home"], step := .screen } ∧
    networkMachine.IsOrderly
      { archetype := .screenApi, name := "users", screens := ["Cart", "Home"], step := .screen } := by
  have hadmissible : Disk.admissible ⟨".", ["src", "Screens"]⟩ = .ok () := by decide
  have hscreens : ({} : Layout).existingScreens ⟨⟨[(["src", "Screens", "Cart"], .dir),
      (["src", "Screens", "Home"], .dir), (["src", "Screens"], .dir), (["src"], .dir)]⟩, []⟩
      ⟨".", []⟩ = ["Cart", "Home"] := by
    refine Volume.directoriesIn_of_locate ["src", "Screens"] ?_ rfl rfl (by decide)
    simp +decide [Disk.locate, hadmissible, Disk.walk, Disk.steps, Disk.bareSteps, Disk.segmentStep,
      Path.join, Disk.get?, List.lookup_cons]
  have hstart : NetworkMachine.forScreen "users" {} ⟨⟨[(["src", "Screens", "Cart"], .dir),
      (["src", "Screens", "Home"], .dir), (["src", "Screens"], .dir), (["src"], .dir)]⟩, []⟩ ⟨".", []⟩ =
        .ok { archetype := .screenApi, name := "users", screens := ["Cart", "Home"], step := .screen } := by
    rw [NetworkMachine.forScreen, hscreens]
  exact ⟨hstart, (machines_isOrderly {} {} "users" _ _).2.2.2.2.2 _ hstart⟩

end AppScaffold
