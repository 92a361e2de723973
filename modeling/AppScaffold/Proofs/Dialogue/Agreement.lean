import AppScaffold.Brief
import AppScaffold.Dialogue.Project
import Mathlib.Data.List.Basic
import Mathlib.Tactic.Common

/-!
# Briefs and dialogues agree

A brief says at once what the dialogue about a new project asks for question by question. Each value of
a brief is an answer to a question. The brief gives a plan exactly if the dialogue accepts these answers
one after the other and ends with the same plan; if the brief is refused, so is one of the answers.
-/

namespace AppScaffold

namespace Dialogue

variable {σ α β γ : Type} {d : Dialogue σ α} {s t : σ} {xs ys : List String}

/-- The state after answers, or the problem with the first one that is not accepted. -/
def answerAll (d : Dialogue σ α) (s : σ) (answers : List String) : Except Problem σ :=
  answers.foldlM d.answer s

/-- The dialogue refuses one of the answers after it has accepted those before it. -/
def Refuses (d : Dialogue σ α) (s : σ) (answers : List String) : Prop :=
  ∃ before raw after t prompt objection, answers = before ++ raw :: after ∧
    d.answerAll s before = .ok t ∧ d.answer t raw = .error (.invalidAnswer prompt raw objection)

/-- More answers go on from the state after the first ones. -/
theorem answerAll_append (d : Dialogue σ α) (s : σ) (xs ys : List String) :
    d.answerAll s (xs ++ ys) = d.answerAll s xs >>= fun t => d.answerAll t ys := by
  unfold answerAll
  exact List.foldlM_append

/-- An answer that is accepted leads on to the answers behind it. -/
theorem answerAll_cons {raw : String} (h : d.answer s raw = .ok t) (ys : List String) :
    d.answerAll s (raw :: ys) = d.answerAll t ys := by
  unfold answerAll
  rw [List.foldlM_cons, h]
  rfl

/-- A dialogue that accepts all answers refuses none of them. -/
theorem not_refuses_of_ok (h : d.answerAll s xs = .ok t) : ¬d.Refuses s xs := by
  intro ⟨before, raw, after, u, prompt, objection, hxs, hbefore, hraw⟩
  rw [hxs, answerAll_append, hbefore] at h
  have hcons : d.answerAll u (raw :: after) = .ok t := h
  unfold answerAll at hcons
  rw [List.foldlM_cons, hraw] at hcons
  cases hcons

/-- What is refused of the first answers is refused also when there are more. -/
theorem Refuses.append_left (h : d.Refuses s xs) (ys : List String) : d.Refuses s (xs ++ ys) := by
  obtain ⟨before, raw, after, t, prompt, objection, hxs, hbefore, hraw⟩ := h
  refine ⟨before, raw, after ++ ys, t, prompt, objection, ?_, hbefore, hraw⟩
  rw [hxs, List.append_assoc, List.cons_append]

/-- What is refused behind answers that are accepted is refused. -/
theorem Refuses.append_right (hxs : d.answerAll s xs = .ok t) (h : d.Refuses t ys) :
    d.Refuses s (xs ++ ys) := by
  obtain ⟨before, raw, after, u, prompt, objection, hys, hbefore, hraw⟩ := h
  refine ⟨xs ++ before, raw, after, u, prompt, objection, ?_, ?_, hraw⟩
  · rw [hys, List.append_assoc]
  · rw [answerAll_append, hxs]
    exact hbefore

/-- The answers keep pace with a check: if it finds a value they lead to a state that fits the value,
and if it finds a bad value one of them is refused. -/
inductive Paces (d : Dialogue σ α) (s : σ) (answers : List String) :
    Except Problem β → (β → σ → Prop) → Prop where
  /-- A value has been found. -/
  | ok {b : β} {fits : β → σ → Prop} {t : σ} (accepts : d.answerAll s answers = .ok t)
      (found : fits b t) : Paces d s answers (.ok b) fits
  /-- A bad value has been found. -/
  | error {prompt answer : String} {objection : Objection} {fits : β → σ → Prop}
      (refuses : d.Refuses s answers) :
      Paces d s answers (.error (.invalidAnswer prompt answer objection)) fits

/-- Checks one after the other keep pace with the answers one after the other. -/
theorem Paces.bind {check : Except Problem β} {next : β → Except Problem γ} {fits : β → σ → Prop}
    {fits' : γ → σ → Prop} (h : d.Paces s xs check fits)
    (hnext : ∀ b t, fits b t → d.Paces t ys (next b) fits') :
    d.Paces s (xs ++ ys) (check >>= next) fits' := by
  cases h with
  | error hrefuses => exact .error (hrefuses.append_left ys)
  | @ok b _ t hxs hfits =>
    have hrest := hnext b t hfits
    change d.Paces s (xs ++ ys) (next b) fits'
    generalize next b = found at hrest ⊢
    cases hrest with
    | error hrefuses => exact .error (hrefuses.append_right hxs)
    | ok hys hfits' =>
      refine .ok ?_ hfits'
      rw [answerAll_append, hxs]
      exact hys

/-- An answer that is accepted changes nothing about those after it. -/
theorem Paces.cons {raw : String} {check : Except Problem β} {fits : β → σ → Prop}
    (hanswer : d.answer s raw = .ok t) (h : d.Paces t xs check fits) :
    d.Paces s (raw :: xs) check fits := by
  have hfirst : d.answerAll s [raw] = .ok t := answerAll_cons hanswer []
  cases h with
  | error hrefuses => exact .error (hrefuses.append_right hfirst)
  | ok hxs hfits => exact .ok ((answerAll_cons hanswer xs).trans hxs) hfits

/-- A value that is there without a question fits the state. -/
theorem Paces.pure {b : β} {fits : β → σ → Prop} (h : fits b s) : d.Paces s [] (.ok b) fits :=
  .ok rfl h

/-- A value may be checked and then changed. -/
theorem Paces.map {check : Except Problem β} {f : β → γ} {fits : γ → σ → Prop}
    (h : d.Paces s xs check fun b t => fits (f b) t) : d.Paces s xs (check.map f) fits := by
  cases h with
  | error hrefuses => exact .error hrefuses
  | ok hxs hfits => exact .ok hxs hfits

/-- A bad value is refused as the answer to a question. -/
theorem paces_error {raw prompt answer : String} {q : Question} {objection objection' : Objection}
    {fits : β → σ → Prop} (hquestion : d.question s = some q)
    (hrespond : d.respond s raw = .error objection) :
    d.Paces s [raw] (.error (.invalidAnswer prompt answer objection')) fits := by
  refine .error ⟨[], raw, [], s, q.prompt, objection, rfl, rfl, ?_⟩
  rw [Dialogue.answer, hquestion]
  simp only [hrespond]

/-- A good value is accepted as the answer to a question. -/
theorem paces_ok {raw : String} {q : Question} {b : β} {fits : β → σ → Prop}
    (hquestion : d.question s = some q) (hrespond : d.respond s raw = .ok t) (h : fits b t) :
    d.Paces s [raw] (.ok b) fits := by
  have hanswer : d.answer s raw = .ok t := by
    rw [answer, hquestion]
    simp only [hrespond]
  exact .ok (answerAll_cons hanswer []) h

/-- A check that finds values of the end agrees with the dialogue: it finds a value exactly if all
answers are accepted and this value is found out at the end, and it fails exactly if one of them is
refused. -/
theorem Paces.agrees {check : Except Problem α}
    (h : d.Paces s xs check fun a t => d.question t = none ∧ d.finish t = .ok a) :
    (∀ a, check = .ok a ↔
      ∃ t, d.answerAll s xs = .ok t ∧ d.question t = none ∧ d.finish t = .ok a) ∧
    ((∃ prompt answer objection, check = .error (.invalidAnswer prompt answer objection)) ↔
      d.Refuses s xs) := by
  cases h with
  | @ok b _ t hxs hfound =>
    obtain ⟨hend, hfinish⟩ := hfound
    constructor
    · intro a
      constructor
      · intro hab
        cases hab
        exact ⟨t, hxs, hend, hfinish⟩
      · intro ⟨u, hxs', _, hfinish'⟩
        rw [hxs] at hxs'
        cases hxs'
        rw [hfinish] at hfinish'
        exact hfinish'
    · constructor
      · intro ⟨prompt, answer, objection, herror⟩
        cases herror
      · intro hrefuses
        exact absurd hrefuses (not_refuses_of_ok hxs)
  | error hrefuses =>
    constructor
    · intro a
      constructor
      · intro hab
        cases hab
      · intro ⟨t, hxs, _⟩
        exact absurd hrefuses (not_refuses_of_ok hxs)
    · exact ⟨fun _ => hrefuses, fun _ => ⟨_, _, _, rfl⟩⟩

end Dialogue

namespace Answer

/-- Digits are read as the number that they write. -/
theorem decimal_eq {cs : List Char} (h : ∀ c ∈ cs, c.isDigit = true) (value : Nat) :
    decimal value cs = some (Nat.ofDigitChars 10 cs value) := by
  induction cs generalizing value with
  | nil => rfl
  | cons c cs ih =>
    have hc := h c List.mem_cons_self
    rw [decimal, if_pos hc, ih (fun d hd => h d (List.mem_cons_of_mem c hd)), Nat.ofDigitChars_cons]
    rfl

/-- A digit is no blank and no sign. -/
theorem not_isBlank_of_isDigit {c : Char} (h : c.isDigit = true) : Text.isBlank c = false ∧ c ≠ '+' := by
  have hrange : 48 ≤ c.toNat ∧ c.toNat ≤ 57 := by
    simpa [Char.isDigit, UInt32.le_iff_toNat_le] using h
  constructor
  · unfold Text.isBlank
    simp only [Bool.or_eq_false_iff, Bool.and_eq_false_iff, decide_eq_false_iff_not, beq_eq_false_iff_ne]
    omega
  · rintro rfl
    exact absurd h (by decide)

end Answer

/-- A number in decimal is read as that number, if it is not too great. -/
theorem Answer.count_toString {n : Nat} (h : n ≤ countLimit) : count (toString n) = .ok n := by
  have hdigits : ∀ c ∈ Nat.toDigits 10 n, c.isDigit = true := fun c hc =>
    Nat.isDigit_of_mem_toDigits (by decide) (by decide) hc
  have htrim : Text.trimChars (toString n).toList = Nat.toDigits 10 n := by
    rw [Nat.toString_eq_ofList_toDigits, String.toList_ofList]
    exact Text.trimChars_of_notMem fun c hc => (not_isBlank_of_isDigit (hdigits c hc)).1
  have hsign : withoutPlus (Nat.toDigits 10 n) = Nat.toDigits 10 n := by
    unfold withoutPlus
    split
    · next cs hcs =>
      have hplus : '+' ∈ Nat.toDigits 10 n := by
        rw [hcs]
        exact List.mem_cons_self
      exact absurd rfl (not_isBlank_of_isDigit (hdigits _ hplus)).2
    · rfl
  have hvalue : decimal 0 (Nat.toDigits 10 n) = some n := by
    rw [decimal_eq hdigits, Nat.ofDigitChars_ten_toDigits]
  rw [count, htrim, hsign]
  split
  · next hnil => exact absurd hnil Nat.toDigits_ne_nil
  · simp only [hvalue, if_pos h]

namespace Brief

variable {b : Brief} {features : Features} {layout : Layout} {project : String}
  {screens : List String} {login : Bool}

/-- The answers about the screens. -/
def screenAnswers (b : Brief) : List String :=
  if b.screenNames = [] then ["n"] else "y" :: toString b.screenNames.length :: b.screenNames

/-- The answers about the login, if it is asked for. -/
def loginAnswers (b : Brief) (features : Features) : List String :=
  if features.askLogin then [if b.login then "y" else "n"] else []

/-- The answers about the network interface, if it is asked for; a blank route is none. -/
def routeAnswers (b : Brief) (features : Features) : List String :=
  if features.askApi then
    match b.apiRoute with
    | none => ["n"]
    | some route => if Text.trim route = "" then ["n"] else ["y", route]
  else []

/-- The answers that say in the dialogue what the brief says. -/
def answers (b : Brief) (features : Features) : List String :=
  b.projectName :: (b.screenAnswers ++ (b.loginAnswers features ++ b.routeAnswers features))

/-- A checked value keeps pace with the answer that the same rule reads. -/
theorem paces_check {s : ProjectState} {raw field : String} {q : Question} {α : Type}
    {read : Except Objection α} {next : α → ProjectState}
    (hquestion : (projectDialogue features layout).question s = some q)
    (hrespond : (projectDialogue features layout).respond s raw = read.map next) :
    (projectDialogue features layout).Paces s [raw] (check field raw read) fun a t => t = next a := by
  cases read with
  | ok a => exact Dialogue.paces_ok hquestion hrespond rfl
  | error objection => exact Dialogue.paces_error hquestion hrespond

/-- What is asked when some of the screens are known. -/
def screenState (features : Features) (project : String) (count : Nat) (found : List String) :
    ProjectState :=
  if found.length < count then .screenName project count found
  else .afterScreens features project found

/-- The names of the screens with one more, which is checked. -/
def addScreen (found : List String) (raw : String) : Except Problem (List String) :=
  check "screenNames" raw (Answer.identifier raw) >>= fun name =>
    if name ∈ found then .error (refuse "screenNames" raw .repeatedScreen) else .ok (found ++ [name])

/-- Names are checked one after the other. -/
theorem checkScreens_cons (found : List String) (raw : String) (raws : List String) :
    checkScreens found (raw :: raws) =
      addScreen found raw >>= fun found => checkScreens found raws := by
  rw [checkScreens, addScreen]
  cases Answer.identifier raw with
  | error objection => rfl
  | ok name =>
    by_cases hname : name ∈ found
    · simp [check, bind, Except.bind, hname]
    · simp [check, bind, Except.bind, hname]

/-- The answer with the name of one screen keeps pace with the check of this name. -/
theorem paces_addScreen {count : Nat} {found : List String} (hcount : found.length < count)
    (raw : String) :
    (projectDialogue features layout).Paces (screenState features project count found) [raw]
      (addScreen found raw) fun more t =>
        more.length = found.length + 1 ∧ t = screenState features project count more := by
  have hquestion : (projectDialogue features layout).question (.screenName project count found) =
      some ⟨"Name of screen " ++ toString (found.length + 1) ++ "?", .text none⟩ := rfl
  rw [screenState, if_pos hcount, addScreen]
  cases hread : Answer.identifier raw with
  | error objection =>
    have hrespond : (projectDialogue features layout).respond (.screenName project count found) raw =
        .error objection := by
      simp only [projectDialogue, ProjectState.respond, hread]
      rfl
    exact Dialogue.paces_error hquestion hrespond
  | ok name =>
    by_cases hname : name ∈ found
    · have hcheck : (check "screenNames" raw (.ok name) >>= fun name =>
          if name ∈ found then .error (refuse "screenNames" raw .repeatedScreen)
          else .ok (found ++ [name])) = .error (refuse "screenNames" raw .repeatedScreen) := by
        simp [check, bind, Except.bind, hname]
      have hrespond : (projectDialogue features layout).respond (.screenName project count found)
          raw = .error (.listedScreen name) := by
        simp [projectDialogue, ProjectState.respond, hread, bind, Except.bind, hname]
      rw [hcheck]
      exact Dialogue.paces_error hquestion hrespond
    · have hcheck : (check "screenNames" raw (.ok name) >>= fun name =>
          if name ∈ found then .error (refuse "screenNames" raw .repeatedScreen)
          else .ok (found ++ [name])) = .ok (found ++ [name]) := by
        simp [check, bind, Except.bind, hname]
      have hrespond : (projectDialogue features layout).respond (.screenName project count found)
          raw = .ok (screenState features project count (found ++ [name])) := by
        simp only [projectDialogue, ProjectState.respond, hread, bind, Except.bind, hname, if_false,
          screenState, pure, Except.pure]
        split
        · rfl
        · rfl
      rw [hcheck]
      exact Dialogue.paces_ok hquestion hrespond ⟨List.length_append, rfl⟩

/-- The answers with the names of the screens keep pace with the check of the names. -/
theorem paces_checkScreens {names found : List String} {count : Nat}
    (hcount : found.length + names.length = count) :
    (projectDialogue features layout).Paces (screenState features project count found) names
      (checkScreens found names) fun screens t => t = .afterScreens features project screens := by
  induction names generalizing found with
  | nil =>
    refine Dialogue.Paces.pure ?_
    rw [screenState, if_neg]
    simp only [List.length_nil] at hcount
    omega
  | cons raw names ih =>
    rw [List.length_cons] at hcount
    have hfirst : (projectDialogue features layout).Paces (screenState features project count found)
        [raw] (addScreen found raw) fun more t =>
          more.length = found.length + 1 ∧ t = screenState features project count more :=
      paces_addScreen (by omega) raw
    rw [checkScreens_cons, ← List.singleton_append]
    refine hfirst.bind fun more t ⟨hlength, ht⟩ => ?_
    rw [ht]
    exact ih (by omega)

/-- The answers about the screens keep pace with the check of their names. -/
theorem paces_screenAnswers (hsize : b.screenNames.length ≤ Answer.countLimit) :
    (projectDialogue features layout).Paces (.wantScreens project) b.screenAnswers
      (checkScreens [] b.screenNames) fun screens t => t = .afterScreens features project screens := by
  unfold screenAnswers
  split
  · next hnone =>
    rw [hnone]
    exact Dialogue.paces_ok rfl rfl rfl
  · next hsome =>
    have hlength : 0 < b.screenNames.length := List.length_pos_iff.mpr hsome
    have hwant : (projectDialogue features layout).answer (.wantScreens project) "y" =
        .ok (.screenCount project) := rfl
    have hcount : (projectDialogue features layout).answer (.screenCount project)
        (toString b.screenNames.length) =
          .ok (screenState features project b.screenNames.length []) := by
      have hread := Answer.count_toString hsize
      rw [screenState, List.length_nil, if_pos hlength]
      cases hnumber : b.screenNames.length with
      | zero => omega
      | succ n =>
        rw [hnumber] at hread
        simp only [Dialogue.answer, projectDialogue, ProjectState.question, ProjectState.respond,
          hread]
        rfl
    have hnames : (projectDialogue features layout).Paces
        (screenState features project b.screenNames.length []) b.screenNames
        (checkScreens [] b.screenNames) fun screens t => t = .afterScreens features project screens :=
      paces_checkScreens (Nat.zero_add _)
    exact (hnames.cons hcount).cons hwant

/-- There is no other screen with the name of the login screen, if there is a login. -/
def checkLogin (b : Brief) (features : Features) (screens : List String) : Except Problem Unit :=
  if b.login && features.askLogin && loginScreenName ∈ screens then
    .error (refuse "login" "true" (.listedScreen loginScreenName))
  else .ok ()

/-- The answer about the login keeps pace with its check. -/
theorem paces_loginAnswers (b : Brief) :
    (projectDialogue features layout).Paces (.afterScreens features project screens)
      (b.loginAnswers features) (b.checkLogin features screens) fun _ t =>
        t = .afterLogin features project screens (b.login && features.askLogin) := by
  unfold loginAnswers checkLogin ProjectState.afterScreens
  cases hask : features.askLogin with
  | false =>
    simp only [Bool.and_false, Bool.false_and, Bool.false_eq_true, if_false]
    exact Dialogue.Paces.pure rfl
  | true =>
    have hquestion : (projectDialogue features layout).question (.wantLogin project screens) =
      some ⟨"Do you want a login screen?", .yesNo false⟩ := rfl
    simp only [Bool.and_true, if_true]
    cases hlogin : b.login with
    | false =>
      simp only [Bool.false_and, Bool.false_eq_true, if_false]
      exact Dialogue.paces_ok hquestion rfl rfl
    | true =>
      have hyes : Answer.yesNo "y" false = .ok true := rfl
      by_cases hlisted : loginScreenName ∈ screens
      · simp only [hlisted, decide_true, Bool.and_true, if_true]
        have hrespond : (projectDialogue features layout).respond (.wantLogin project screens) "y" =
            .error (.listedScreen loginScreenName) := by
          simp [projectDialogue, ProjectState.respond, hyes, bind, Except.bind, hlisted]
        exact Dialogue.paces_error hquestion hrespond
      · simp only [hlisted, decide_false, Bool.and_false, Bool.false_eq_true, if_false, if_true]
        have hrespond : (projectDialogue features layout).respond (.wantLogin project screens) "y" =
            .ok (.afterLogin features project screens true) := by
          simp [projectDialogue, ProjectState.respond, hyes, bind, Except.bind, hlisted, pure,
            Except.pure]
        exact Dialogue.paces_ok hquestion hrespond rfl

/-- The answers about the network interface keep pace with the check of the route. -/
theorem paces_routeAnswers (b : Brief) :
    (projectDialogue features layout).Paces (.afterLogin features project screens login)
      (b.routeAnswers features) (b.checkRoute features) fun route t =>
        t = .done project screens login route := by
  unfold routeAnswers checkRoute ProjectState.afterLogin
  cases hask : features.askApi with
  | false =>
    simp only [Bool.false_and, Bool.false_eq_true, if_false]
    split
    · exact Dialogue.Paces.pure rfl
    · exact Dialogue.Paces.pure rfl
  | true =>
    have hquestion : (projectDialogue features layout).question (.wantApi project screens login) =
      some ⟨"Do you want to create an API folder?", .yesNo true⟩ := rfl
    have hno : (projectDialogue features layout).respond (.wantApi project screens login) "n" =
      .ok (.done project screens login none) := rfl
    have hyes : (projectDialogue features layout).answer (.wantApi project screens login) "y" =
      .ok (.baseUrl project screens login) := rfl
    simp only [Bool.true_and, if_true]
    cases hroute : b.apiRoute with
    | none => exact Dialogue.paces_ok hquestion hno rfl
    | some route =>
      by_cases hblank : Text.trim route = ""
      · simp only [hblank, if_true, ne_eq, not_true_eq_false, decide_false, Bool.false_eq_true,
          if_false]
        exact Dialogue.paces_ok hquestion hno rfl
      · simp only [hblank, if_false, ne_eq, not_false_eq_true, decide_true, if_true]
        have hrespond : (projectDialogue features layout).respond (.baseUrl project screens login)
            route = (Answer.baseUrl route Address.proposed).map fun url =>
              .done project screens login (some url) := by
          simp only [projectDialogue, ProjectState.respond]
          cases Answer.baseUrl route Address.proposed with
          | error objection => rfl
          | ok url => rfl
        have haddress : (projectDialogue features layout).Paces (.baseUrl project screens login)
            [route] (check "apiRoute" route (Answer.baseUrl route Address.proposed)) fun url t =>
              t = .done project screens login (some url) := paces_check rfl hrespond
        exact haddress.map.cons hyes

/-- A brief whose number of screens is right is checked like its answers, one part after the other. -/
theorem toPlan_eq (hcount : b.screenCount = none ∨ b.screenCount = some b.screenNames.length) :
    b.toPlan features layout =
      check "projectName" b.projectName (Answer.projectName b.projectName) >>= fun project =>
        checkScreens [] b.screenNames >>= fun screens =>
          b.checkLogin features screens >>= fun _ =>
            b.checkRoute features >>= fun route =>
              .ok (.project project screens (b.login && features.askLogin) route layout) := by
  have hchecked : b.checkCount = .ok () := by
    unfold checkCount
    rcases hcount with hnone | hsome
    · rw [hnone]
    · rw [hsome]
      exact if_pos rfl
  unfold toPlan checkLogin
  rw [hchecked]
  cases check "projectName" b.projectName (Answer.projectName b.projectName) with
  | error e => rfl
  | ok project =>
    cases hscreens : checkScreens [] b.screenNames with
    | error e => rfl
    | ok screens =>
      simp only [bind, Except.bind, pure, Except.pure]
      split
      · rfl
      · rfl

/-- A brief that announces the right number of screens, or none, agrees with the dialogue. It gives a
plan exactly if its answers are all accepted, nothing is asked after them, and the same plan is found
out; and a value of it is refused exactly if one of its answers is. The last hypothesis holds of every
list that is held in memory: its length is a machine number. -/
theorem toPlan_agrees (b : Brief) (features : Features) (layout : Layout)
    (hcount : b.screenCount = none ∨ b.screenCount = some b.screenNames.length)
    (hsize : b.screenNames.length ≤ Answer.countLimit) :
    (∀ p, b.toPlan features layout = .ok p ↔
      ∃ s, (projectDialogue features layout).answerAll (projectDialogue features layout).start
          (b.answers features) = .ok s ∧
        (projectDialogue features layout).question s = none ∧
        (projectDialogue features layout).finish s = .ok p) ∧
    ((∃ prompt answer objection,
        b.toPlan features layout = .error (.invalidAnswer prompt answer objection)) ↔
      (projectDialogue features layout).Refuses (projectDialogue features layout).start
        (b.answers features)) := by
  have hrespond : (projectDialogue features layout).respond .projectName b.projectName =
      (Answer.projectName b.projectName).map .wantScreens := by
    simp only [projectDialogue, ProjectState.respond]
    cases Answer.projectName b.projectName with
    | error objection => rfl
    | ok project => rfl
  have hproject : (projectDialogue features layout).Paces .projectName [b.projectName]
      (check "projectName" b.projectName (Answer.projectName b.projectName)) fun project t =>
        t = .wantScreens project := paces_check rfl hrespond
  refine Dialogue.Paces.agrees ?_
  rw [toPlan_eq hcount]
  refine hproject.bind fun project s hs => hs ▸ ?_
  refine (paces_screenAnswers hsize).bind fun screens s hs => hs ▸ ?_
  refine (paces_loginAnswers b).bind fun _ s hs => hs ▸ ?_
  rw [← List.append_nil (b.routeAnswers features)]
  refine (paces_routeAnswers b).bind fun route s hs => hs ▸ ?_
  exact Dialogue.Paces.pure ⟨rfl, rfl⟩

/-- A login is found out about a shop with two screens, and refused if one of them is called like the
login screen. -/
theorem toPlan_agrees_shop :
    ["Home", "Cart"].length ≤ Answer.countLimit ∧
    (∃ s, (projectDialogue {} {}).answerAll .projectName
        ["shop", "y", "2", "Home", "Cart", "y", "y", "api.shop.io"] = .ok s ∧
      (projectDialogue {} {}).question s = none ∧ (projectDialogue {} {}).finish s =
        .ok (.project "shop" ["Home", "Cart"] true (some "api.shop.io") {})) ∧
    (projectDialogue {} {}).Refuses .projectName
      ["shop", "y", "2", "Home", "Login", "y", "y", "api.shop.io"] := by
  have hsize : ["Home", "Cart"].length ≤ Answer.countLimit := by decide
  have hshop := toPlan_agrees ⟨"shop", some 2, ["Home", "Cart"], some "api.shop.io", true⟩ {} {}
    (.inr rfl) hsize
  have hlisted := toPlan_agrees ⟨"shop", none, ["Home", "Login"], some "api.shop.io", true⟩ {} {}
    (.inl rfl) hsize
  exact ⟨hsize, (hshop.1 _).mp rfl, hlisted.2.mp ⟨_, _, _, rfl⟩⟩

end Brief

end AppScaffold
