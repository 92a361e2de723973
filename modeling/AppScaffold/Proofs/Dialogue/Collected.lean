import AppScaffold.Proofs.Dialogue.Agreement
import AppScaffold.Proofs.Dialogue.Runs
import AppScaffold.Proofs.Loop
import Mathlib.Data.List.Nodup

/-!
# What is collected for a plan

The plan of a new project is found out question by question or read from a brief. Either way its
parts have been checked: the project has a name, the screens have different names that are
identifiers, none of them is called like the login screen if there is one, and the base address can
stand between quotes. A step of the dialogue keeps what has been checked, and so does a whole
dialogue.
-/

namespace AppScaffold

namespace Brief

/-- A checked value is one that the rule finds. -/
theorem eq_ok_of_check {α : Type} {field value : String} {x : Except Objection α} {a : α}
    (h : check field value x = .ok a) : x = .ok a := by
  cases x with
  | error objection => cases h
  | ok b => exact congrArg Except.ok (Except.ok.inj h)

/-- A base address of a brief is read by the rule for base addresses. -/
theorem exists_baseUrl_of_checkRoute {b : Brief} {features : Features} {address : Option String}
    (h : b.checkRoute features = .ok address) {url : String} (hurl : address = some url) :
    ∃ raw, Answer.baseUrl raw Address.proposed = .ok url := by
  subst hurl
  unfold checkRoute at h
  split at h
  · cases h
  · next route _ =>
    split_ifs at h
    · cases hread : Answer.baseUrl route Address.proposed with
      | error objection =>
        rw [hread] at h
        cases h
      | ok url' =>
        rw [hread] at h
        exact ⟨route, hread.trans (congrArg Except.ok (Option.some.inj (Except.ok.inj h)))⟩
    · cases h

end Brief

/-- The parts of a plan, as they are found out. -/
structure PlanParts where
  /-- The name of the project. -/
  project : String
  /-- The names of the screens. -/
  screens : List String := []
  /-- There is a login screen. -/
  login : Bool := false
  /-- The base address of the network interface. -/
  address : Option String := none

namespace PlanParts

/-- The plan with these parts. -/
def plan (parts : PlanParts) (layout : Layout) : Plan :=
  .project parts.project parts.screens parts.login parts.address layout

/-- The parts have been checked. -/
structure IsChecked (parts : PlanParts) : Prop where
  /-- The project has a name. -/
  project : ∃ raw, Answer.projectName raw = .ok parts.project
  /-- The screens have names that are identifiers. -/
  identifier : ∀ name ∈ parts.screens, Name.isIdentifier name = true
  /-- The names are different. -/
  nodup : parts.screens.Nodup
  /-- No screen is called like the login screen. -/
  login : parts.login = true → loginScreenName ∉ parts.screens
  /-- The base address was given, or it is the one that is proposed. -/
  address : ∀ url, parts.address = some url → ∃ raw, Answer.baseUrl raw Address.proposed = .ok url

variable {project raw name : String} {screens : List String} {login : Bool}

/-- The name of a project is checked first. -/
theorem IsChecked.ofProject (h : Answer.projectName raw = .ok project) :
    IsChecked { project } where
  project := ⟨raw, h⟩
  identifier := by simp
  nodup := List.nodup_nil
  login := by simp
  address := by simp

/-- A screen with a new name that is an identifier can be added. -/
theorem IsChecked.addScreen (h : IsChecked { project, screens })
    (hname : Answer.identifier raw = .ok name) (hnew : name ∉ screens) :
    IsChecked { project, screens := screens ++ [name] } where
  project := h.project
  identifier := by
    have hident : Name.isIdentifier name = true := by
      unfold Answer.identifier at hname
      dsimp only at hname
      split_ifs at hname with hident
      rw [← Except.ok.inj hname]
      exact hident
    simpa [or_imp, forall_and, hident] using h.identifier
  nodup := by
    have hdisjoint : ∀ a ∈ screens, a ≠ name := fun a ha heq => hnew (heq ▸ ha)
    rw [List.nodup_append]
    exact ⟨h.nodup, List.nodup_singleton name, by simpa using hdisjoint⟩
  login := by simp
  address := by simp

/-- A login can be added to screens that are called differently. -/
theorem IsChecked.addLogin (h : IsChecked { project, screens })
    (hlogin : login = true → loginScreenName ∉ screens) :
    IsChecked { project, screens, login } where
  project := h.project
  identifier := h.identifier
  nodup := h.nodup
  login := hlogin
  address := by simp

/-- A base address can be added. -/
theorem IsChecked.addAddress {address : Option String} (h : IsChecked { project, screens, login })
    (haddress : ∀ url, address = some url → ∃ raw, Answer.baseUrl raw Address.proposed = .ok url) :
    IsChecked { project, screens, login, address } where
  project := h.project
  identifier := h.identifier
  nodup := h.nodup
  login := h.login
  address := haddress

/-- Names of screens that are checked one after the other can be added. -/
theorem IsChecked.checkScreens {found raws : List String}
    (h : IsChecked { project, screens := found })
    (hscreens : Brief.checkScreens found raws = .ok screens) : IsChecked { project, screens } := by
  induction raws generalizing found with
  | nil => exact Except.ok.inj hscreens ▸ h
  | cons raw raws ih =>
    obtain ⟨name, hname, hrest⟩ := exists_of_bind_eq_ok hscreens
    split_ifs at hrest with hfound
    exact ih (h.addScreen (Brief.eq_ok_of_check hname) hfound) hrest

end PlanParts

namespace ProjectState

/-- What has been found out in a state. -/
def parts? : ProjectState → Option PlanParts
  | projectName => none
  | wantScreens project | screenCount project => some { project }
  | screenName project _ screens | wantLogin project screens => some { project, screens }
  | wantApi project screens login | baseUrl project screens login => some { project, screens, login }
  | done project screens login address => some { project, screens, login, address }

/-- What has been found out has been checked. -/
def IsChecked (s : ProjectState) : Prop := ∀ parts, s.parts? = some parts → parts.IsChecked

variable {features : Features} {s t : ProjectState} {parts : PlanParts} {project raw : String}
  {screens : List String} {login : Bool}

/-- A state is checked if its parts are. -/
theorem IsChecked.of_parts (hs : s.parts? = some parts) (h : parts.IsChecked) : s.IsChecked := by
  intro parts' hparts
  rw [hs] at hparts
  rwa [← Option.some.inj hparts]

/-- The state behind the login is checked. -/
theorem isChecked_afterLogin (h : PlanParts.IsChecked { project, screens, login }) :
    (afterLogin features project screens login).IsChecked := by
  unfold afterLogin
  split_ifs
  · exact .of_parts rfl h
  · exact .of_parts rfl h

/-- The state behind the screens is checked. -/
theorem isChecked_afterScreens (h : PlanParts.IsChecked { project, screens }) :
    (afterScreens features project screens).IsChecked := by
  unfold afterScreens
  split_ifs
  · exact .of_parts rfl h
  · exact isChecked_afterLogin h

/-- An answer keeps what has been checked, and what it adds is checked. -/
theorem IsChecked.respond (hs : s.IsChecked) (h : s.respond features raw = .ok t) :
    t.IsChecked := by
  cases s with
  | projectName =>
    obtain ⟨project, hproject, hnext⟩ := exists_of_bind_eq_ok h
    rw [← Except.ok.inj hnext]
    exact .of_parts rfl (.ofProject hproject)
  | wantScreens project =>
    obtain ⟨yes, -, hnext⟩ := exists_of_bind_eq_ok h
    split_ifs at hnext
    · rw [← Except.ok.inj hnext]
      exact .of_parts rfl (hs _ rfl)
    · rw [← Except.ok.inj hnext]
      exact isChecked_afterScreens (hs _ rfl)
  | screenCount project =>
    obtain ⟨count, -, hnext⟩ := exists_of_bind_eq_ok h
    cases count with
    | zero =>
      rw [← Except.ok.inj hnext]
      exact isChecked_afterScreens (hs _ rfl)
    | succ n =>
      rw [← Except.ok.inj hnext]
      exact .of_parts rfl (hs _ rfl)
  | screenName project count screens =>
    obtain ⟨name, hname, hnext⟩ := exists_of_bind_eq_ok h
    split_ifs at hnext with hlisted
    have hmore := (hs _ rfl).addScreen hname hlisted
    dsimp only at hnext
    split_ifs at hnext
    · rw [← Except.ok.inj hnext]
      exact .of_parts rfl hmore
    · rw [← Except.ok.inj hnext]
      exact isChecked_afterScreens hmore
  | wantLogin project screens =>
    obtain ⟨login, -, hnext⟩ := exists_of_bind_eq_ok h
    split_ifs at hnext with hlisted
    rw [← Except.ok.inj hnext]
    refine isChecked_afterLogin ((hs _ rfl).addLogin fun hlogin hmem => hlisted ?_)
    simp [hlogin, hmem]
  | wantApi project screens login =>
    obtain ⟨yes, -, hnext⟩ := exists_of_bind_eq_ok h
    split_ifs at hnext
    · rw [← Except.ok.inj hnext]
      exact .of_parts rfl (hs _ rfl)
    · rw [← Except.ok.inj hnext]
      exact .of_parts rfl (hs _ rfl)
  | baseUrl project screens login =>
    obtain ⟨url, hurl, hnext⟩ := exists_of_bind_eq_ok h
    rw [← Except.ok.inj hnext]
    exact .of_parts rfl ((hs _ rfl).addAddress fun _ heq => ⟨raw, Option.some.inj heq ▸ hurl⟩)
  | done project screens login address =>
    rw [← Except.ok.inj h]
    exact hs

end ProjectState

namespace Dialogue

variable {σ α : Type} {d : Dialogue σ α} {s t : σ} {answers : List String}

/-- What holds of a state and is kept by every answer holds of every later state. -/
theorem answerAll_induction {P : σ → Prop} (hstep : ∀ s raw t, P s → d.answer s raw = .ok t → P t)
    (hs : P s) (h : d.answerAll s answers = .ok t) : P t := by
  induction answers generalizing s with
  | nil => exact Except.ok.inj h ▸ hs
  | cons raw answers ih =>
    obtain ⟨u, hu, hrest⟩ := exists_of_bind_eq_ok ((List.foldlM_cons ..).symm.trans h)
    exact ih (hstep s raw u hs hu) hrest

/-- An answer that is accepted is an answer to a question. -/
theorem respond_of_answer {raw : String} (h : d.answer s raw = .ok t) : d.respond s raw = .ok t := by
  unfold answer at h
  split at h
  · cases h
  · split at h
    · next next hnext => rw [hnext, Except.ok.inj h]
    · cases h

/-- Answers that were refused do not matter: what is found out in the course of a dialogue is found
out from the answers that were accepted. -/
theorem exists_answerAll_of_driveFrom {absent : Question → String} {attempts : Nat} {a : α}
    (h : (d.driveFrom absent s attempts answers).result = .ok a) :
    ∃ accepted t, accepted.Sublist answers ∧ d.answerAll s accepted = .ok t ∧ d.finish t = .ok a := by
  have hrun := d.driveFrom_runOf absent s attempts answers
  generalize d.driveFrom absent s attempts answers = run at hrun h
  induction hrun with
  | finished => exact ⟨[], _, List.nil_sublist _, rfl, h⟩
  | @accepted _ _ _ _ raw _ _ _ hraw _ ih =>
    obtain ⟨accepted, t, hsub, ht, hfinish⟩ := ih h
    refine ⟨raw :: accepted, t, hsub.cons_cons raw, ?_, hfinish⟩
    rw [answerAll_cons hraw, ht]
  | @refused _ _ _ raw _ _ _ _ _ _ _ ih =>
    obtain ⟨accepted, t, hsub, ht, hfinish⟩ := ih h
    exact ⟨accepted, t, hsub.cons raw, ht, hfinish⟩
  | unanswered | exhausted => cases h

end Dialogue

namespace Plan

variable {features : Features} {layout : Layout} {p : Plan}

/-- A plan that was found out in a dialogue or read from a brief. -/
def Collected (features : Features) (layout : Layout) (p : Plan) : Prop :=
  (∃ answers s, (projectDialogue features layout).answerAll
      (projectDialogue features layout).start answers = .ok s ∧
    (projectDialogue features layout).finish s = .ok p) ∨
  ∃ b : Brief, b.toPlan features layout = .ok p

/-- The plan at the end of a whole dialogue is collected, whether answers were refused or not. -/
theorem Collected.of_drive {absent : Question → String} {answers : List String}
    (h : ((projectDialogue features layout).drive absent answers).result = .ok p) :
    p.Collected features layout := by
  obtain ⟨accepted, s, -, hs, hfinish⟩ := Dialogue.exists_answerAll_of_driveFrom h
  exact .inl ⟨accepted, s, hs, hfinish⟩

/-- What is found out in a dialogue has been checked. -/
theorem exists_parts_of_answerAll {answers : List String} {s : ProjectState}
    (hs : (projectDialogue features layout).answerAll (projectDialogue features layout).start
      answers = .ok s)
    (h : (projectDialogue features layout).finish s = .ok p) :
    ∃ parts : PlanParts, p = parts.plan layout ∧ parts.IsChecked := by
  have hchecked : s.IsChecked := by
    refine Dialogue.answerAll_induction (fun s raw t hs ht => ?_) ?_ hs
    · exact ProjectState.IsChecked.respond hs (Dialogue.respond_of_answer ht)
    · intro parts hparts
      cases hparts
  cases s with
  | done project screens login address =>
    exact ⟨⟨project, screens, login, address⟩, (Except.ok.inj h).symm, hchecked _ rfl⟩
  | _ => cases h

/-- What is read from a brief has been checked. -/
theorem exists_parts_of_toPlan {b : Brief} (h : b.toPlan features layout = .ok p) :
    ∃ parts : PlanParts, p = parts.plan layout ∧ parts.IsChecked := by
  obtain ⟨project, hproject, h⟩ := exists_of_bind_eq_ok h
  obtain ⟨-, -, h⟩ := exists_of_bind_eq_ok h
  obtain ⟨screens, hscreens, h⟩ := exists_of_bind_eq_ok h
  dsimp only at h
  split_ifs at h with hlisted
  obtain ⟨address, haddress, h⟩ := exists_of_bind_eq_ok h
  have hproject := PlanParts.IsChecked.ofProject (Brief.eq_ok_of_check hproject)
  refine ⟨⟨project, screens, _, address⟩, (Except.ok.inj h).symm,
    ((hproject.checkScreens hscreens).addLogin fun hlogin hmem => hlisted ?_).addAddress
      fun url hurl => Brief.exists_baseUrl_of_checkRoute haddress hurl⟩
  have hboth : (b.login && features.askLogin) = true := hlogin
  rw [hboth, decide_eq_true hmem]
  rfl

/-- The parts of a collected plan have been checked. -/
theorem Collected.exists_parts (h : p.Collected features layout) :
    ∃ parts : PlanParts, p = parts.plan layout ∧ parts.IsChecked := by
  rcases h with ⟨answers, s, hs, hfinish⟩ | ⟨b, hb⟩
  · exact exists_parts_of_answerAll hs hfinish
  · exact exists_parts_of_toPlan hb

end Plan

end AppScaffold
