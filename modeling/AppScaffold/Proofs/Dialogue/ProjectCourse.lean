import AppScaffold.Proofs.Dialogue.ProjectFields

/-!
# The course of the machine for a new project

What the machine has written down is right at every time, whatever has been answered and refused. How
many answers it takes is settled by the features and by what was answered about the screens and the
network interface: the machine is done after exactly so many answers that it accepted. The count goes
along with the states of the dialogue; each answer that is accepted adds one to it.
-/

namespace AppScaffold.ProjectMachine

/-- The fields after answers from the beginning, some of which may be refused. -/
def reached (features : Features) (layout : Layout) (answers : List String) : ProjectMachine :=
  projectMachine.afterAll (new features layout) answers

/-- The answers from the beginning that are accepted, each with the fields at the time. -/
def heard (features : Features) (layout : Layout) (answers : List String) :
    List (ProjectMachine × String) :=
  projectMachine.log (new features layout) answers

/-- The answer to the question of a step, if one has been accepted. -/
def reply? (log : List (ProjectMachine × String)) (step : ProjectStep) : Option String :=
  (log.find? fun e => e.1.step = step).map Prod.snd

/-- The question of a step has been answered with yes, or with nothing where yes is proposed. -/
def saidYes (log : List (ProjectMachine × String)) (step : ProjectStep) : Bool :=
  (reply? log step).any fun raw => Answer.yesNo raw true = .ok true

/-- The number of screens that was given; zero if none was. -/
def entered (log : List (ProjectMachine × String)) : Nat :=
  match (reply? log .screenCount).map Answer.count with
  | some (.ok n) => n
  | _ => 0

/-- How many answers there are about screens behind the question whether there are to be any. -/
def screenAnswers (log : List (ProjectMachine × String)) : Nat :=
  if saidYes log .wantScreens then 1 + entered log else 0

/-- How many answers it takes, going by what has been answered. -/
def answersFor (features : Features) (log : List (ProjectMachine × String)) : Nat :=
  2 + screenAnswers log + (if features.askLogin then 1 else 0) +
    (if features.askApi then 1 + (if saidYes log .wantApi then 1 else 0) else 0)

/-- What holds after answers from the beginning. -/
structure IsKept (features : Features) (layout : Layout) (answers : List String) : Prop where
  /-- The screens are different. -/
  nodup : (reached features layout answers).screens.Nodup
  /-- The screens are called by identifiers. -/
  identifier : ∀ name ∈ (reached features layout answers).screens, Name.isIdentifier name = true
  /-- The question about the next screen has the number of the screens so far; it is below the number
  that was given, and the number after it is still one that could be given. -/
  next : ∀ i, (reached features layout answers).step = .screenName i →
    i = (reached features layout answers).screens.length ∧
    i < (reached features layout answers).screenCount ∧ i + 1 ≤ Answer.countLimit
  /-- There is a login only if it is asked for, and then no screen is called like it. -/
  login : (reached features layout answers).login = true →
    features.askLogin = true ∧ loginScreenName ∉ (reached features layout answers).screens
  /-- There is a base address only if it is asked for; it is not empty and can stand between quotes. -/
  address : ∀ url, (reached features layout answers).baseUrl = some url →
    features.askApi = true ∧ url ≠ "" ∧
    ∀ c ∈ url.toList, Text.isBlank c = false ∧ Address.isQuoteOrBackslash c = false
  /-- A plan is given exactly at the end. -/
  finish : (∃ plan, (reached features layout answers).finish = .ok plan) ↔
    (reached features layout answers).step = .done
  /-- No more answers are accepted than it takes. -/
  atMost : (heard features layout answers).length ≤
    answersFor features (heard features layout answers)
  /-- The end is reached exactly when so many answers have been accepted. -/
  done : (reached features layout answers).step = .done ↔
    (heard features layout answers).length = answersFor features (heard features layout answers)
  /-- On the way to the end, it was not reached before, and it was not left behind. -/
  exactly : (reached features layout answers).step = .done → ∀ before after,
    answers = before ++ after →
    ((reached features layout before).step = .done ↔
      (heard features layout before).length =
        answersFor features (heard features layout answers))

section Counting

variable {features : Features} {log : List (ProjectMachine × String)} {m : ProjectMachine}
  {raw : String} {step : ProjectStep}

/-- An answer to another question changes nothing about the answer to a question. -/
theorem reply?_of_ne (h : m.step ≠ step) :
    reply? (log ++ [(m, raw)]) step = reply? log step := by
  unfold reply?
  rw [List.find?_append, List.find?_singleton, decide_eq_false h]
  simp

/-- The first answer to a question is the answer to it. -/
theorem reply?_of_eq (h : m.step = step) (hnone : reply? log step = none) :
    reply? (log ++ [(m, raw)]) step = some raw := by
  unfold reply? at hnone ⊢
  rw [Option.map_eq_none_iff] at hnone
  rw [List.find?_append, hnone, List.find?_singleton, decide_eq_true h]
  rfl

/-- What was answered with yes or no. -/
theorem saidYes_of_reply {yes : Bool} (hreply : reply? log step = some raw)
    (hyes : Answer.yesNo raw true = .ok yes) : saidYes log step = yes := by
  unfold saidYes
  rw [hreply, Option.any_some, hyes]
  cases yes <;> rfl

/-- The number of screens that was given. -/
theorem entered_of_reply {n : Nat} (hreply : reply? log .screenCount = some raw)
    (hcount : Answer.count raw = .ok n) : entered log = n := by
  unfold entered
  rw [hreply, Option.map_some, hcount]

/-- What was answered about screens stays when other questions are answered. -/
theorem screenAnswers_of_ne (hwant : m.step ≠ .wantScreens) (hcount : m.step ≠ .screenCount) :
    screenAnswers (log ++ [(m, raw)]) = screenAnswers log := by
  unfold screenAnswers saidYes entered
  rw [reply?_of_ne hwant, reply?_of_ne hcount]

/-- What has been accepted when the fields hold a state, and how many answers that is. -/
def Course (features : Features) (log : List (ProjectMachine × String)) : ProjectState → Prop
  | .projectName => log = []
  | .wantScreens _ => log.length = 1 ∧ reply? log .wantScreens = none ∧
    reply? log .screenCount = none ∧ reply? log .wantApi = none
  | .screenCount _ => log.length = 2 ∧ saidYes log .wantScreens = true ∧
    reply? log .screenCount = none ∧ reply? log .wantApi = none
  | .screenName _ count screens => log.length = 3 + screens.length ∧ screens.length < count ∧
    count ≤ Answer.countLimit ∧ saidYes log .wantScreens = true ∧ entered log = count ∧
    reply? log .wantApi = none
  | .wantLogin _ _ => features.askLogin = true ∧ log.length = 2 + screenAnswers log ∧
    reply? log .wantApi = none
  | .wantApi _ _ login => (login = true → features.askLogin = true) ∧ features.askApi = true ∧
    log.length = 2 + screenAnswers log + (if features.askLogin then 1 else 0) ∧
    reply? log .wantApi = none
  | .baseUrl _ _ login => (login = true → features.askLogin = true) ∧ features.askApi = true ∧
    log.length = 2 + screenAnswers log + (if features.askLogin then 1 else 0) + 1 ∧
    saidYes log .wantApi = true
  | .done _ _ login address => (login = true → features.askLogin = true) ∧
    (address ≠ none → features.askApi = true) ∧ log.length = answersFor features log

/-- The course behind the login. -/
theorem course_afterLogin {project : String} {screens : List String} {login : Bool}
    (hlogin : login = true → features.askLogin = true)
    (hlength : log.length = 2 + screenAnswers log + (if features.askLogin then 1 else 0))
    (hapi : reply? log .wantApi = none) :
    Course features log (ProjectState.afterLogin features project screens login) := by
  unfold ProjectState.afterLogin
  split_ifs with hask
  · exact ⟨hlogin, hask, hlength, hapi⟩
  · refine ⟨hlogin, fun h => absurd rfl h, ?_⟩
    rw [answersFor, if_neg hask, ← hlength, Nat.add_zero]

/-- The course behind the screens. -/
theorem course_afterScreens {project : String} {screens : List String}
    (hlength : log.length = 2 + screenAnswers log) (hapi : reply? log .wantApi = none) :
    Course features log (ProjectState.afterScreens features project screens) := by
  unfold ProjectState.afterScreens
  split_ifs with hask
  · exact ⟨hask, hlength, hapi⟩
  · refine course_afterLogin (fun h => absurd h (by decide)) ?_ hapi
    rw [if_neg hask, hlength, Nat.add_zero]

/-- A number that is read can be counted to. -/
theorem le_countLimit {n : Nat} (h : Answer.count raw = .ok n) : n ≤ Answer.countLimit := by
  unfold Answer.count at h
  split at h
  · cases h
  · split at h
    · split_ifs at h with hle
      exact Except.ok.inj h ▸ hle
    · cases h

attribute [local simp] ProjectState.step

/-- An answer that is accepted goes on with the course. -/
theorem Course.lead {t u : ProjectState} (h : Course features log t) (hstep : m.step = t.step)
    (hlead : ProjectState.Leads features raw t u) : Course features (log ++ [(m, raw)]) u := by
  have hlength : (log ++ [(m, raw)]).length = log.length + 1 := List.length_append
  have hold : ∀ {step}, t.step ≠ step → reply? (log ++ [(m, raw)]) step = reply? log step :=
    fun hne => reply?_of_ne (hstep ▸ hne)
  have hscreens : t.step ≠ .wantScreens → t.step ≠ .screenCount →
      screenAnswers (log ++ [(m, raw)]) = screenAnswers log :=
    fun hwant hcount => screenAnswers_of_ne (hstep ▸ hwant) (hstep ▸ hcount)
  cases hlead with
  | named hname =>
    obtain rfl : log = [] := h
    exact ⟨rfl, hold (by simp), hold (by simp), hold (by simp)⟩
  | wanted hyes =>
    obtain ⟨hone, hwant, hcount, hapi⟩ := h
    refine ⟨by omega, saidYes_of_reply (reply?_of_eq hstep hwant) hyes, ?_, ?_⟩
    · exact (hold (by simp)).trans hcount
    · exact (hold (by simp)).trans hapi
  | unwanted hno =>
    obtain ⟨hone, hwant, hcount, hapi⟩ := h
    have hsaid : saidYes (log ++ [(m, raw)]) .wantScreens = false :=
      saidYes_of_reply (reply?_of_eq hstep hwant) hno
    refine course_afterScreens ?_ ((hold (by simp)).trans hapi)
    rw [screenAnswers, hsaid, if_neg (by decide)]
    omega
  | noneCounted hzero =>
    obtain ⟨htwo, hwant, hcount, hapi⟩ := h
    have hsaid : saidYes (log ++ [(m, raw)]) .wantScreens = true := by
      rwa [saidYes, hold (by simp)]
    refine course_afterScreens ?_ ((hold (by simp)).trans hapi)
    rw [screenAnswers, if_pos hsaid, entered_of_reply (reply?_of_eq hstep hcount) hzero]
    omega
  | counted hn =>
    obtain ⟨htwo, hwant, hcount, hapi⟩ := h
    refine ⟨?_, Nat.succ_pos _, le_countLimit hn, ?_, ?_, (hold (by simp)).trans hapi⟩
    · rw [hlength, htwo, List.length_nil]
    · rwa [saidYes, hold (by simp)]
    · exact entered_of_reply (reply?_of_eq hstep hcount) hn
  | listed hname hnew hmore =>
    obtain ⟨hlog, -, hlimit, hwant, hcount, hapi⟩ := h
    refine ⟨?_, ?_, hlimit, ?_, ?_, (hold (by simp)).trans hapi⟩
    · rw [hlength, hlog, List.length_append, List.length_singleton, Nat.add_assoc]
    · rwa [List.length_append, List.length_singleton]
    · rwa [saidYes, hold (by simp)]
    · rwa [entered, hold (by simp)]
  | lastListed hname hnew hlast =>
    obtain ⟨hlog, hless, -, hwant, hcount, hapi⟩ := h
    refine course_afterScreens ?_ ((hold (by simp)).trans hapi)
    rw [hscreens (by simp) (by simp), screenAnswers, if_pos hwant, hcount]
    omega
  | loginSettled hlogin hfree =>
    obtain ⟨hask, hlog, hapi⟩ := h
    refine course_afterLogin (fun _ => hask) ?_ ((hold (by simp)).trans hapi)
    rw [hscreens (by simp) (by simp), if_pos hask]
    omega
  | apiWanted hyes =>
    obtain ⟨hlogin, hask, hlog, hapi⟩ := h
    refine ⟨hlogin, hask, ?_, saidYes_of_reply (reply?_of_eq hstep hapi) hyes⟩
    rw [hscreens (by simp) (by simp)]
    omega
  | apiUnwanted hno =>
    obtain ⟨hlogin, hask, hlog, hapi⟩ := h
    have hsaid : saidYes (log ++ [(m, raw)]) .wantApi = false :=
      saidYes_of_reply (reply?_of_eq hstep hapi) hno
    refine ⟨hlogin, fun _ => hask, ?_⟩
    rw [answersFor, hscreens (by simp) (by simp), if_pos hask, hsaid]
    simp only [Bool.false_eq_true, if_false]
    omega
  | addressed hurl =>
    obtain ⟨hlogin, hask, hlog, hapi⟩ := h
    have hsaid : saidYes (log ++ [(m, raw)]) .wantApi = true := by
      rwa [saidYes, hold (by simp)]
    refine ⟨hlogin, fun _ => hask, ?_⟩
    rw [answersFor, hscreens (by simp) (by simp), if_pos hask, if_pos hsaid]
    omega

/-- The end is reached when as many answers have been accepted as it takes, and not before. -/
theorem Course.length_answersFor {t : ProjectState} (h : Course features log t) :
    log.length ≤ answersFor features log ∧
      (t.step = .done ↔ log.length = answersFor features log) := by
  have hmore : t.step ≠ .done → log.length < answersFor features log → log.length ≤
      answersFor features log ∧ (t.step = .done ↔ log.length = answersFor features log) :=
    fun hne hlt => ⟨hlt.le, fun hdone => absurd hdone hne, fun heq => absurd heq hlt.ne⟩
  have hall : answersFor features log = 2 + screenAnswers log +
      (if features.askLogin then 1 else 0) +
      (if features.askApi then 1 + (if saidYes log .wantApi then 1 else 0) else 0) := rfl
  cases t with
  | projectName =>
    obtain rfl : log = [] := h
    refine hmore (by simp) ?_
    rw [hall, List.length_nil]
    omega
  | wantScreens project =>
    obtain ⟨hone, -⟩ := h
    exact hmore (by simp) (by omega)
  | screenCount project =>
    obtain ⟨htwo, hwant, -⟩ := h
    have hscreens : screenAnswers log = 1 + entered log := if_pos hwant
    exact hmore (by simp) (by omega)
  | screenName project count screens =>
    obtain ⟨hlog, hless, -, hwant, hcount, -⟩ := h
    have hscreens : screenAnswers log = 1 + entered log := if_pos hwant
    exact hmore (by simp) (by omega)
  | wantLogin project screens =>
    obtain ⟨hask, hlog, -⟩ := h
    rw [if_pos hask] at hall
    exact hmore (by simp) (by omega)
  | wantApi project screens login =>
    obtain ⟨-, hask, hlog, -⟩ := h
    rw [if_pos hask] at hall
    exact hmore (by simp) (by omega)
  | baseUrl project screens login =>
    obtain ⟨-, hask, hlog, hyes⟩ := h
    rw [if_pos hask, if_pos hyes] at hall
    exact hmore (by simp) (by omega)
  | done project screens login address =>
    obtain ⟨-, -, hlog⟩ := h
    exact ⟨hlog.le, fun _ => hlog, fun _ => rfl⟩

end Counting

section Runs

variable {features : Features} {layout : Layout} {answers : List String} {m : ProjectMachine}
  {t : ProjectState}

/-- Whatever is answered, the fields hold a state that has been checked, and the course goes on. -/
theorem exists_course {log : List (ProjectMachine × String)} (hm : Holds features layout m t)
    (hchecked : t.IsChecked) (hcourse : Course features log t) :
    ∃ u, Holds features layout (projectMachine.afterAll m answers) u ∧ u.IsChecked ∧
      Course features (log ++ projectMachine.log m answers) u := by
  induction answers generalizing m t log with
  | nil =>
    refine ⟨t, hm, hchecked, ?_⟩
    rwa [Machine.log, List.append_nil]
  | cons raw answers ih =>
    change ∃ u, Holds features layout
      (projectMachine.afterAll (projectMachine.after m raw) answers) u ∧ _
    have hstep : m.step = t.step := by
      obtain ⟨count, rfl⟩ := hm
      cases t <;> rfl
    cases hraw : (projectDialogue features layout).answer t raw with
    | ok u =>
      obtain ⟨next, hnext, hholds⟩ := (realizes features layout).accept hm hraw
      have hlead := hcourse.lead hstep (ProjectState.leads_of_answer hraw)
      rw [Machine.after_of_ok hnext, Machine.log_cons_of_ok hnext, List.append_cons]
      exact ih hholds (hchecked.respond (Dialogue.respond_of_answer hraw)) hlead
    | error e =>
      have hrefuse := (realizes features layout).refuse hm hraw
      rw [Machine.after_of_error hrefuse, Machine.log_cons_of_error hrefuse]
      exact ih hm hchecked hcourse

/-- Nothing is accepted any more at the end. -/
theorem log_eq_nil_of_done (h : m.step = .done) : projectMachine.log m answers = [] := by
  induction answers with
  | nil => rfl
  | cons raw answers ih =>
    have hrefuse : (projectMachine.answer raw).run m = .error (Machine.unfinished "project") m := by
      simp [projectMachine, answer, h, ProjectStep.question]
    rw [Machine.log_cons_of_error hrefuse, ih]

/-- An address that is read is not empty and can stand between quotes. -/
theorem plain_of_baseUrl {raw url : String} (h : Answer.baseUrl raw Address.proposed = .ok url) :
    url ≠ "" ∧ ∀ c ∈ url.toList, Text.isBlank c = false ∧ Address.isQuoteOrBackslash c = false := by
  unfold Answer.baseUrl at h
  dsimp only at h
  split_ifs at h with hempty hblank hquote
  · obtain rfl := Except.ok.inj h
    have hall : (Address.proposed.toList.all fun c =>
        !Text.isBlank c && !Address.isQuoteOrBackslash c) = true := by decide
    exact ⟨by decide, fun c hc => by simpa using List.all_eq_true.mp hall c hc⟩
  · obtain rfl := Except.ok.inj h
    refine ⟨hempty, fun c hc => ⟨?_, ?_⟩⟩
    · exact Bool.eq_false_iff.mpr fun hc' => hblank (List.any_eq_true.mpr ⟨c, hc, hc'⟩)
    · exact Bool.eq_false_iff.mpr fun hc' => hquote (List.any_eq_true.mpr ⟨c, hc, hc'⟩)

/-- What the fields say of the screens, the login and the address is what the state says of them, or
nothing yet. -/
theorem fields_parts (t : ProjectState) (count : Nat) :
    ((t.fields features layout count).screens = [] ∧ (t.fields features layout count).login = false ∧
      (t.fields features layout count).baseUrl = none) ∨
    ∃ parts, t.parts? = some parts ∧ (t.fields features layout count).screens = parts.screens ∧
      (t.fields features layout count).login = parts.login ∧
      (t.fields features layout count).baseUrl = parts.address := by
  cases t with
  | projectName => exact .inl ⟨rfl, rfl, rfl⟩
  | _ => exact .inr ⟨_, rfl, rfl, rfl, rfl⟩

variable {log : List (ProjectMachine × String)} {count : Nat}

/-- The screens in the fields that hold a checked state. -/
theorem fields_screens (hchecked : t.IsChecked) :
    (t.fields features layout count).screens.Nodup ∧
    ∀ name ∈ (t.fields features layout count).screens, Name.isIdentifier name = true := by
  rcases fields_parts t count with ⟨hscreens, -⟩ | ⟨parts, hparts, hscreens, -⟩
  · rw [hscreens]
    exact ⟨List.nodup_nil, fun name hname => absurd hname List.not_mem_nil⟩
  · rw [hscreens]
    exact ⟨(hchecked parts hparts).nodup, (hchecked parts hparts).identifier⟩

/-- The number of the next screen in the fields. -/
theorem fields_next (hcourse : Course features log t) {i : Nat}
    (hi : (t.fields features layout count).step = .screenName i) :
    i = (t.fields features layout count).screens.length ∧
      i < (t.fields features layout count).screenCount ∧ i + 1 ≤ Answer.countLimit := by
  cases t <;> cases hi
  obtain ⟨-, hless, hlimit, -⟩ := hcourse
  exact ⟨rfl, hless, hless.trans_le hlimit⟩

/-- The login in the fields that hold a checked state. -/
theorem fields_login (hchecked : t.IsChecked) (hcourse : Course features log t)
    (hlogin : (t.fields features layout count).login = true) :
    features.askLogin = true ∧
      loginScreenName ∉ (t.fields features layout count).screens := by
  constructor
  · cases t with
    | wantApi project screens login => exact hcourse.1 hlogin
    | baseUrl project screens login => exact hcourse.1 hlogin
    | done project screens login address => exact hcourse.1 hlogin
    | _ => cases hlogin
  · rcases fields_parts t count with ⟨-, hfalse, -⟩ | ⟨parts, hparts, hscreens, hsame, -⟩
    · exact absurd hlogin (by rw [hfalse]; decide)
    · rw [hscreens]
      exact (hchecked parts hparts).login (hsame ▸ hlogin)

/-- The base address in the fields that hold a checked state. -/
theorem fields_address (hchecked : t.IsChecked) (hcourse : Course features log t) {url : String}
    (hurl : (t.fields features layout count).baseUrl = some url) :
    features.askApi = true ∧ url ≠ "" ∧
      ∀ c ∈ url.toList, Text.isBlank c = false ∧ Address.isQuoteOrBackslash c = false := by
  constructor
  · cases t with
    | done project screens login address =>
      obtain rfl : address = some url := hurl
      exact hcourse.2.1 (Option.some_ne_none url)
    | _ => cases hurl
  · rcases fields_parts t count with ⟨-, -, hnone⟩ | ⟨parts, hparts, -, -, haddress⟩
    · exact absurd hurl (by rw [hnone]; exact (Option.some_ne_none url).symm)
    · obtain ⟨raw, hraw⟩ := (hchecked parts hparts).address url (haddress ▸ hurl)
      exact plain_of_baseUrl hraw

/-- The step in the fields. -/
theorem step_fields : (t.fields features layout count).step = t.step := by
  cases t <;> rfl

/-- The fields give a plan at the end only. -/
theorem finish_fields :
    (∃ plan, (t.fields features layout count).finish = .ok plan) ↔ t.step = .done := by
  cases t with
  | done project screens login address => exact ⟨fun _ => rfl, fun _ => ⟨_, rfl⟩⟩
  | _ =>
    constructor
    · rintro ⟨plan, hplan⟩
      cases hplan
    · intro h
      cases h

/-- After any answers from the beginning the fields hold a state, and the course is that of the answers
that were accepted. -/
theorem exists_reached (features : Features) (layout : Layout) (answers : List String) :
    ∃ t count, reached features layout answers = t.fields features layout count ∧ t.IsChecked ∧
      Course features (heard features layout answers) t := by
  have hstart : ProjectState.projectName.IsChecked := fun parts hparts => by cases hparts
  have hnothing : Course features [] .projectName := rfl
  obtain ⟨t, ⟨count, ht⟩, hchecked, hcourse⟩ :
      ∃ u, Holds features layout (reached features layout answers) u ∧ u.IsChecked ∧
        Course features (heard features layout answers) u :=
    exists_course (holds_new features layout) hstart hnothing
  exact ⟨t, count, ht, hchecked, hcourse⟩

/-- The end is reached when as many answers have been accepted as it takes, and not before. -/
theorem length_heard (features : Features) (layout : Layout) (answers : List String) :
    (heard features layout answers).length ≤ answersFor features (heard features layout answers) ∧
    ((reached features layout answers).step = .done ↔ (heard features layout answers).length =
      answersFor features (heard features layout answers)) := by
  obtain ⟨t, count, ht, -, hcourse⟩ := exists_reached features layout answers
  rw [ht, step_fields]
  exact hcourse.length_answersFor

/-- What was accepted before and after. -/
theorem heard_append (features : Features) (layout : Layout) (before after : List String) :
    heard features layout (before ++ after) = heard features layout before ++
      projectMachine.log (reached features layout before) after :=
  Machine.log_append projectMachine _ before after

/-- On the way to the end, it is reached with the last answer that is accepted. -/
theorem reached_done_iff {before after : List String}
    (hend : (reached features layout (before ++ after)).step = .done) :
    (reached features layout before).step = .done ↔ (heard features layout before).length =
      answersFor features (heard features layout (before ++ after)) := by
  have hsplit := heard_append features layout before after
  have hall := (length_heard features layout (before ++ after)).2.mp hend
  have hbefore := (length_heard features layout before).2
  constructor
  · intro hdone
    rw [hsplit, log_eq_nil_of_done hdone, List.append_nil]
    exact hbefore.mp hdone
  · intro hlength
    have hsum := congrArg List.length hsplit
    rw [List.length_append] at hsum
    have hnone : projectMachine.log (reached features layout before) after = [] :=
      List.length_eq_zero_iff.mp (by omega)
    rw [hsplit, hnone, List.append_nil] at hlength
    exact hbefore.mpr hlength

/-- Whatever is answered, what the machine has written down is right, and it is done after exactly as
many accepted answers as it takes. -/
theorem new_isKept (features : Features) (layout : Layout) (answers : List String) :
    IsKept features layout answers := by
  obtain ⟨t, count, ht, hchecked, hcourse⟩ := exists_reached features layout answers
  obtain ⟨hatMost, hdone⟩ := length_heard features layout answers
  exact
    { nodup := ht ▸ (fields_screens hchecked).1
      identifier := ht ▸ (fields_screens hchecked).2
      next := fun i => ht ▸ fields_next hcourse
      login := ht ▸ fields_login hchecked hcourse
      address := fun url => ht ▸ fields_address hchecked hcourse
      finish := ht ▸ finish_fields.trans (by rw [step_fields])
      atMost := hatMost
      done := hdone
      exactly := fun hend before after hsplit => by
        subst hsplit
        exact reached_done_iff hend }

/-- Answers about a shop with two screens. Refused are a project name with a blank, a count that is no
number, a screen that is there already and an address with a blank. -/
def shopAnswers : List String :=
  ["my shop", "shop", "y", "two", "2", "Home", "Home", "Cart", "y", "y", "api shop", "api.shop.io"]

/-- The end is reached with the last of these answers, when the eight that it takes have been accepted, and
the plan has what was answered. -/
theorem new_isKept_shop : IsKept {} {} shopAnswers ∧
    (reached {} {} (shopAnswers.take 11)).step = .baseUrl ∧ (reached {} {} shopAnswers).step = .done ∧
    (heard {} {} shopAnswers).map Prod.snd = ["shop", "y", "2", "Home", "Cart", "y", "y", "api.shop.io"] ∧
    answersFor {} (heard {} {} shopAnswers) = 8 ∧
    (reached {} {} shopAnswers).finish = .ok (.project "shop" ["Home", "Cart"] true
      (some "api.shop.io") {}) :=
  ⟨new_isKept {} {} shopAnswers, rfl, rfl, rfl, rfl, rfl⟩

end Runs

end AppScaffold.ProjectMachine
