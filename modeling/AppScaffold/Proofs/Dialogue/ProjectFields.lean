import AppScaffold.Dialogue.Machine.Project
import AppScaffold.Proofs.Dialogue.Collected
import AppScaffold.Proofs.Dialogue.Machines
import Mathlib.Data.Prod.Lex

/-!
# The fields of the machine for a new project

The fields hold the states of the dialogue about a new project: each state gives every field its value,
but for the number of screens, which is left from an earlier question once the screens are known. The
ways that an answer leads on are listed once, as a relation between states, and everything that a run
keeps is read off this list.
-/

namespace AppScaffold

@[simp] theorem ok_bind {ε α β : Type} (a : α) (f : α → Except ε β) :
    ((.ok a : Except ε α) >>= f) = f a := rfl

@[simp] theorem error_bind {ε α β : Type} (e : ε) (f : α → Except ε β) :
    ((.error e : Except ε α) >>= f) = .error e := rfl

@[simp] theorem pure_eq_ok {ε α : Type} (a : α) : (pure a : Except ε α) = .ok a := rfl

/-- What checking an answer does. -/
@[simp] theorem Question.run_check {σ α : Type} (q : Question) (raw : String)
    (x : Except Objection α) (s : σ) :
    (q.check raw x).run s = match x with
      | .ok a => .ok a s
      | .error objection => .error (.invalidAnswer q.prompt raw objection) s := by
  cases x with
  | ok a => rfl
  | error objection => rfl

/-- Different numbers are written differently. -/
theorem eq_of_repr_eq {i j : Nat} (h : i.repr = j.repr) : i = j := by
  have hread : Nat.ofDigitChars 10 i.repr.toList 0 = Nat.ofDigitChars 10 j.repr.toList 0 := by rw [h]
  simpa only [Nat.repr_eq_ofList_toDigits, String.toList_ofList, Nat.ofDigitChars_ten_toDigits]
    using hread

namespace ProjectStep

/-- How far a step is from the beginning; among the questions about screens, those about later screens
are further. -/
def rank : ProjectStep → ℕ ×ₗ ℕ
  | projectName => toLex (0, 0)
  | wantScreens => toLex (1, 0)
  | screenCount => toLex (2, 0)
  | screenName index => toLex (3, index)
  | wantLogin => toLex (4, 0)
  | wantApi => toLex (5, 0)
  | baseUrl => toLex (6, 0)
  | done => toLex (7, 0)

/-- The question about a screen begins as no other question does. -/
theorem screenName_prompt_ne {s : String} (index : Nat) (h : s.toList.head? ≠ some 'N') :
    "Name of screen " ++ toString (index + 1) ++ "?" ≠ s := by
  intro heq
  apply h
  rw [← heq, String.toList_append, String.toList_append]
  rfl

/-- The questions about different screens are different. -/
theorem screenName_question_inj {i j : Nat}
    (h : (screenName i).question = (screenName j).question) : i = j := by
  have hprompt := congrArg (fun q => q.prompt.toList) (Option.some.inj h)
  simp only [String.toList_append, List.append_cancel_left_eq, List.append_cancel_right_eq] at hprompt
  exact Nat.succ.inj (eq_of_repr_eq (String.toList_inj.mp hprompt))

/-- Different steps have different questions. -/
theorem eq_of_question {a b : ProjectStep} {q : Question} (ha : a.question = some q)
    (hb : b.question = some q) : a = b := by
  have heq : a.question = b.question := ha.trans hb.symm
  have hasked : a.question ≠ none := by simp [ha]
  cases a <;> cases b
  case screenName.screenName i j => exact congrArg screenName (screenName_question_inj heq)
  all_goals simp [question] at heq hasked ⊢
  case screenName.projectName i => exact screenName_prompt_ne i (by simp) heq
  case screenName.screenCount i => exact screenName_prompt_ne i (by simp) heq
  case projectName.screenName j => exact screenName_prompt_ne j (by simp) heq.symm
  case screenCount.screenName j => exact screenName_prompt_ne j (by simp) heq.symm

end ProjectStep

namespace ProjectState

/-- The ways that an answer leads from one state to the next. -/
inductive Leads (features : Features) (raw : String) : ProjectState → ProjectState → Prop where
  /-- The project has a name. -/
  | named {project : String} (h : Answer.projectName raw = .ok project) :
    Leads features raw projectName (wantScreens project)
  /-- There are to be screens. -/
  | wanted {project : String} (h : Answer.yesNo raw true = .ok true) :
    Leads features raw (wantScreens project) (screenCount project)
  /-- There are to be no screens. -/
  | unwanted {project : String} (h : Answer.yesNo raw true = .ok false) :
    Leads features raw (wantScreens project) (afterScreens features project [])
  /-- There are to be screens, but their number is zero. -/
  | noneCounted {project : String} (h : Answer.count raw = .ok 0) :
    Leads features raw (screenCount project) (afterScreens features project [])
  /-- The number of screens is known. -/
  | counted {project : String} {n : Nat} (h : Answer.count raw = .ok (n + 1)) :
    Leads features raw (screenCount project) (screenName project (n + 1) [])
  /-- The next screen has a name, and there are more. -/
  | listed {project name : String} {count : Nat} {screens : List String}
    (h : Answer.identifier raw = .ok name) (hnew : name ∉ screens)
    (hmore : screens.length + 1 < count) :
    Leads features raw (screenName project count screens)
      (screenName project count (screens ++ [name]))
  /-- The last screen has a name. -/
  | lastListed {project name : String} {count : Nat} {screens : List String}
    (h : Answer.identifier raw = .ok name) (hnew : name ∉ screens)
    (hlast : count ≤ screens.length + 1) :
    Leads features raw (screenName project count screens)
      (afterScreens features project (screens ++ [name]))
  /-- The login is settled. -/
  | loginSettled {project : String} {screens : List String} {login : Bool}
    (h : Answer.yesNo raw false = .ok login)
    (hfree : login = true → loginScreenName ∉ screens) :
    Leads features raw (wantLogin project screens) (afterLogin features project screens login)
  /-- There is to be a network interface. -/
  | apiWanted {project : String} {screens : List String} {login : Bool}
    (h : Answer.yesNo raw true = .ok true) :
    Leads features raw (wantApi project screens login) (baseUrl project screens login)
  /-- There is to be no network interface. -/
  | apiUnwanted {project : String} {screens : List String} {login : Bool}
    (h : Answer.yesNo raw true = .ok false) :
    Leads features raw (wantApi project screens login) (done project screens login none)
  /-- The base address is known. -/
  | addressed {project url : String} {screens : List String} {login : Bool}
    (h : Answer.baseUrl raw Address.proposed = .ok url) :
    Leads features raw (baseUrl project screens login) (done project screens login (some url))

variable {features : Features} {layout : Layout} {raw : String} {s t : ProjectState}

/-- An answer that is accepted leads on in one of these ways. -/
theorem leads_of_answer (h : (projectDialogue features layout).answer s raw = .ok t) :
    Leads features raw s t := by
  have hrespond : respond features s raw = .ok t := Dialogue.respond_of_answer h
  cases s with
  | projectName =>
    obtain ⟨project, hproject, hnext⟩ := exists_of_bind_eq_ok hrespond
    rw [← Except.ok.inj hnext]
    exact .named hproject
  | wantScreens project =>
    obtain ⟨yes, hyes, hnext⟩ := exists_of_bind_eq_ok hrespond
    cases yes with
    | true =>
      rw [← Except.ok.inj hnext]
      exact .wanted hyes
    | false =>
      rw [← Except.ok.inj hnext]
      exact .unwanted hyes
  | screenCount project =>
    obtain ⟨count, hcount, hnext⟩ := exists_of_bind_eq_ok hrespond
    cases count with
    | zero =>
      rw [← Except.ok.inj hnext]
      exact .noneCounted hcount
    | succ n =>
      rw [← Except.ok.inj hnext]
      exact .counted hcount
  | screenName project count screens =>
    obtain ⟨name, hname, hnext⟩ := exists_of_bind_eq_ok hrespond
    split_ifs at hnext with hlisted
    dsimp only at hnext
    rw [List.length_append, List.length_singleton] at hnext
    split_ifs at hnext with hmore
    · rw [← Except.ok.inj hnext]
      exact .listed hname hlisted hmore
    · rw [← Except.ok.inj hnext]
      exact .lastListed hname hlisted (Nat.not_lt.mp hmore)
  | wantLogin project screens =>
    obtain ⟨login, hlogin, hnext⟩ := exists_of_bind_eq_ok hrespond
    split_ifs at hnext with hlisted
    rw [← Except.ok.inj hnext]
    refine .loginSettled hlogin fun hyes hmem => hlisted ?_
    simp [hyes, hmem]
  | wantApi project screens login =>
    obtain ⟨yes, hyes, hnext⟩ := exists_of_bind_eq_ok hrespond
    cases yes with
    | true =>
      rw [← Except.ok.inj hnext]
      exact .apiWanted hyes
    | false =>
      rw [← Except.ok.inj hnext]
      exact .apiUnwanted hyes
  | baseUrl project screens login =>
    obtain ⟨url, hurl, hnext⟩ := exists_of_bind_eq_ok hrespond
    rw [← Except.ok.inj hnext]
    exact .addressed hurl
  | done project screens login address => cases h

/-- What is asked next in a state. -/
def step : ProjectState → ProjectStep
  | projectName => .projectName
  | wantScreens _ => .wantScreens
  | screenCount _ => .screenCount
  | screenName _ _ screens => .screenName screens.length
  | wantLogin .. => .wantLogin
  | wantApi .. => .wantApi
  | baseUrl .. => .baseUrl
  | done .. => .done

/-- The state behind the login is further than the question about it. -/
theorem lt_rank_afterLogin (project : String) (screens : List String) (login : Bool) :
    toLex (4, 0) < (afterLogin features project screens login).step.rank := by
  unfold afterLogin
  split_ifs
  · exact Prod.Lex.left _ _ (by decide)
  · exact Prod.Lex.left _ _ (by decide)

/-- The state behind the screens is further than all questions about them. -/
theorem lt_rank_afterScreens {phase : ℕ} (hphase : phase < 4) (i : ℕ) (project : String)
    (screens : List String) :
    toLex (phase, i) < (afterScreens features project screens).step.rank := by
  unfold afterScreens
  split_ifs
  · exact Prod.Lex.left _ _ hphase
  · have hlogin : toLex (phase, i) < toLex (4, 0) := Prod.Lex.left _ _ hphase
    exact hlogin.trans (lt_rank_afterLogin ..)

/-- Each answer leads further. -/
theorem Leads.rank_lt (h : Leads features raw s t) : s.step.rank < t.step.rank := by
  cases h with
  | named => exact Prod.Lex.left _ _ (by decide)
  | wanted => exact Prod.Lex.left _ _ (by decide)
  | unwanted => exact lt_rank_afterScreens (by decide) ..
  | noneCounted => exact lt_rank_afterScreens (by decide) ..
  | counted => exact Prod.Lex.left _ _ (by decide)
  | listed => exact Prod.Lex.right _ (by simp)
  | lastListed => exact lt_rank_afterScreens (by decide) ..
  | loginSettled => exact lt_rank_afterLogin ..
  | apiWanted => exact Prod.Lex.left _ _ (by decide)
  | apiUnwanted => exact Prod.Lex.left _ _ (by decide)
  | addressed => exact Prod.Lex.left _ _ (by decide)

/-- The fields that hold a state; `count` is what is left of the number of screens when their names
are known. -/
def fields (features : Features) (layout : Layout) (count : Nat) (s : ProjectState) :
    ProjectMachine :=
  match s with
  | projectName => { features, layout }
  | wantScreens project | screenCount project =>
    { features, layout, step := s.step, projectName := some project }
  | screenName project count screens =>
    { features, layout, step := s.step, projectName := some project, screenCount := count, screens }
  | wantLogin project screens =>
    { features, layout, step := s.step, projectName := some project, screenCount := count, screens }
  | wantApi project screens login | baseUrl project screens login =>
    { features, layout, step := s.step, projectName := some project, screenCount := count, screens,
      login }
  | done project screens login address =>
    { features, layout, step := s.step, projectName := some project, screenCount := count, screens,
      login, baseUrl := address }

/-- The step has the question of the state. -/
theorem question_step (s : ProjectState) : s.step.question = s.question := by
  cases s <;> rfl

end ProjectState

namespace ProjectMachine

variable {features : Features} {layout : Layout} {raw : String} {count : Nat} {t : ProjectState}

section Answering

attribute [local simp] projectDialogue Dialogue.answer ProjectState.question ProjectState.respond
  ProjectState.afterScreens ProjectState.afterLogin ProjectState.fields ProjectState.step
  ProjectStep.question afterScreens afterLogin take

/-- An answer writes into the fields what it adds to the state that they hold; if it is refused, all
fields stay as they are. -/
theorem exists_run_answer (features : Features) (layout : Layout) (raw : String) (count : Nat)
    (t : ProjectState) :
    ∃ left, (answer raw).run (t.fields features layout count) =
      match (projectDialogue features layout).answer t raw with
      | .ok u => .ok () (u.fields features layout left)
      | .error e => .error e (t.fields features layout count) := by
  unfold answer
  cases t with
  | projectName =>
    refine ⟨count, ?_⟩
    cases h : Answer.projectName raw with
    | ok project => simp [-bind_pure_comp, h]
    | error objection => simp [-bind_pure_comp, h]
  | wantScreens project =>
    refine ⟨0, ?_⟩
    cases h : Answer.yesNo raw true with
    | ok yes =>
      cases yes with
      | true => simp [-bind_pure_comp, h]
      | false =>
        cases hlogin : features.askLogin <;> cases hapi : features.askApi <;>
          simp [-bind_pure_comp, h, hlogin, hapi]
    | error objection => simp [-bind_pure_comp, h]
  | screenCount project =>
    refine ⟨0, ?_⟩
    cases h : Answer.count raw with
    | ok n =>
      cases n with
      | zero =>
        cases hlogin : features.askLogin <;> cases hapi : features.askApi <;>
          simp [-bind_pure_comp, h, hlogin, hapi]
      | succ n => simp [-bind_pure_comp, h]
    | error objection => simp [-bind_pure_comp, h]
  | screenName project count screens =>
    refine ⟨count, ?_⟩
    cases h : Answer.identifier raw with
    | ok name =>
      by_cases hlisted : name ∈ screens
      · simp [-bind_pure_comp, h, hlisted]
      · by_cases hmore : screens.length + 1 < count
        · simp [-bind_pure_comp, h, hlisted, hmore]
        · cases hlogin : features.askLogin <;> cases hapi : features.askApi <;>
            simp [-bind_pure_comp, h, hlisted, hmore, hlogin, hapi]
    | error objection => simp [-bind_pure_comp, h]
  | wantLogin project screens =>
    refine ⟨count, ?_⟩
    cases h : Answer.yesNo raw false with
    | ok login =>
      -- The field has its old value again when the login is refused.
      by_cases hlisted : login = true ∧ loginScreenName ∈ screens
      · simp [-bind_pure_comp, h, hlisted]
      · cases hapi : features.askApi <;> simp [-bind_pure_comp, h, hlisted, hapi]
    | error objection => simp [-bind_pure_comp, h]
  | wantApi project screens login =>
    refine ⟨count, ?_⟩
    cases h : Answer.yesNo raw true with
    | ok yes =>
      cases yes with
      | true => simp [-bind_pure_comp, h]
      | false => simp [-bind_pure_comp, h]
    | error objection => simp [-bind_pure_comp, h]
  | baseUrl project screens login =>
    refine ⟨count, ?_⟩
    cases h : Answer.baseUrl raw Address.proposed with
    | ok url => simp [-bind_pure_comp, h]
    | error objection => simp [-bind_pure_comp, h]
  | done project screens login address =>
    refine ⟨count, ?_⟩
    simp [Machine.unfinished, Dialogue.unfinished]

end Answering

/-- The fields hold a state of the dialogue. -/
def Holds (features : Features) (layout : Layout) (m : ProjectMachine) (t : ProjectState) : Prop :=
  ∃ count, m = t.fields features layout count

/-- The machine for a new project realizes the dialogue about one. -/
theorem realizes (features : Features) (layout : Layout) :
    projectMachine.Realizes (projectDialogue features layout) (Holds features layout) where
  question := by
    rintro m t ⟨count, rfl⟩
    cases t <;> rfl
  accept := by
    rintro m t u raw ⟨count, rfl⟩ haccept
    obtain ⟨left, hrun⟩ := exists_run_answer features layout raw count t
    rw [haccept] at hrun
    exact ⟨u.fields features layout left, hrun, left, rfl⟩
  refuse := by
    rintro m t e raw ⟨count, rfl⟩ hrefuse
    obtain ⟨left, hrun⟩ := exists_run_answer features layout raw count t
    rwa [hrefuse] at hrun
  finish := by
    rintro m t ⟨count, rfl⟩
    cases t <;> rfl

/-- The questions of the dialogue about a new project do not come back. -/
theorem advances (features : Features) (layout : Layout) :
    (projectDialogue features layout).Advances fun t => t.step.rank where
  rises h := (ProjectState.leads_of_answer h).rank_lt
  same {t u q} ht hu := by
    have hstep : t.step = u.step := by
      refine ProjectStep.eq_of_question (q := q) ?_ ?_
      · rw [ProjectState.question_step]
        exact ht
      · rw [ProjectState.question_step]
        exact hu
    exact congrArg ProjectStep.rank hstep

/-- The machine begins where the dialogue does. -/
theorem holds_new (features : Features) (layout : Layout) :
    Holds features layout (new features layout) (projectDialogue features layout).start := ⟨0, rfl⟩

end ProjectMachine

end AppScaffold
