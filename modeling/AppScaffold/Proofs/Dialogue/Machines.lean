import AppScaffold.Dialogue.Machine
import AppScaffold.Proofs.Dialogue.Runs
import Mathlib.Data.List.Basic
import Mathlib.Tactic.Common

/-!
# Machines that realize dialogues

The fields of a machine hold a state of a dialogue. An answer that the dialogue accepts overwrites the
fields so that they hold the next state; one that it refuses leaves all of them as they were. So the
loop around the machine runs exactly as the dialogue does, and since no question comes back once it has
been answered, none is put more than three times. Answers that were refused can be left out.
-/

namespace AppScaffold

namespace Machine

variable {σ α : Type}

/-- The fields after an answer, whether it is accepted or not. -/
def after (m : Machine σ α) (s : σ) (raw : String) : σ :=
  match (m.answer raw).run s with
  | .ok () next => next
  | .error _ next => next

/-- The fields after answers, some of which may be refused. -/
def afterAll (m : Machine σ α) (s : σ) (answers : List String) : σ := answers.foldl m.after s

/-- The answers that are accepted, each with the fields at the time when it was given. -/
def log (m : Machine σ α) (s : σ) : List String → List (σ × String)
  | [] => []
  | raw :: answers =>
    match (m.answer raw).run s with
    | .ok () next => (s, raw) :: m.log next answers
    | .error _ next => m.log next answers

/-- The answers that are accepted. -/
def accepted (m : Machine σ α) (s : σ) (answers : List String) : List String :=
  (m.log s answers).map Prod.snd

/-- The question is open, its answer is refused, and all fields stay as they are. -/
def Refuses (m : Machine σ α) (s : σ) (raw : String) : Prop :=
  ∃ q objection, m.question s = some q ∧
    (m.answer raw).run s = .error (.invalidAnswer q.prompt raw objection) s

/-- A machine whose refused answers leave no trace. -/
structure IsOrderly (m : Machine σ α) (start : σ) : Prop where
  /-- Whatever has been answered, an answer that is not accepted leaves all fields as they were. -/
  unchanged : ∀ answers raw e t, (m.answer raw).run (m.afterAll start answers) = .error e t →
    t = m.afterAll start answers
  /-- No question is put more than three times. -/
  bounded : ∀ absent answers q, (m.drive absent start answers).asked.count q ≤ 3
  /-- If a value is found out, it is found out also when the answers that were refused are left out;
  then none is refused, and the same answers remain. -/
  replays : ∀ absent answers a, (m.drive absent start answers).result = .ok a →
    ∃ used, answers = used ++ (m.drive absent start answers).remaining ∧
      m.drive absent start
        (m.accepted start used ++ (m.drive absent start answers).remaining) =
      ⟨(m.log start used).filterMap fun e => m.question e.1, [],
        (m.drive absent start answers).remaining, .ok a⟩
  /-- If a refused answer ends it, it is the third one in a row that was refused with the same fields,
  and nothing behind it is used. -/
  exhausted : ∀ absent answers prompt raw objection,
    (m.drive absent start answers).result = .error (.invalidAnswer prompt raw objection) →
    ∃ before x y,
      answers = before ++ [x, y, raw] ++ (m.drive absent start answers).remaining ∧
      (∀ z ∈ [x, y, raw], m.Refuses (m.afterAll start before) z) ∧
      (m.answer raw).run (m.afterAll start before) =
        .error (.invalidAnswer prompt raw objection) (m.afterAll start before)

section Runs

variable {m : Machine σ α} {s t : σ} {raw : String}

/-- An answer that is accepted leads to the next fields. -/
theorem after_of_ok (h : (m.answer raw).run s = .ok () t) : m.after s raw = t := by
  unfold after
  rw [h]

/-- An answer that is not accepted leads to the fields that it has left. -/
theorem after_of_error {e : Problem} (h : (m.answer raw).run s = .error e t) : m.after s raw = t := by
  unfold after
  rw [h]

/-- An answer that is accepted is in the log. -/
theorem log_cons_of_ok (h : (m.answer raw).run s = .ok () t) (answers : List String) :
    m.log s (raw :: answers) = (s, raw) :: m.log t answers := by
  simp only [log, h]

/-- An answer that is not accepted is not in the log. -/
theorem log_cons_of_error {e : Problem} (h : (m.answer raw).run s = .error e t) (answers : List String) :
    m.log s (raw :: answers) = m.log t answers := by
  simp only [log, h]

/-- The log goes on behind the first answers. -/
theorem log_append (m : Machine σ α) (s : σ) (xs ys : List String) :
    m.log s (xs ++ ys) = m.log s xs ++ m.log (m.afterAll s xs) ys := by
  induction xs generalizing s with
  | nil => rfl
  | cons raw xs ih =>
    have hafter : m.afterAll s (raw :: xs) = m.afterAll (m.after s raw) xs := rfl
    rw [List.cons_append, hafter]
    cases h : (m.answer raw).run s with
    | ok u t =>
      rw [log_cons_of_ok h, log_cons_of_ok h, after_of_ok h, ih, List.cons_append]
    | error e t => rw [log_cons_of_error h, log_cons_of_error h, after_of_error h, ih]

variable {absent : Question → String} {attempts : Nat} {answers : List String} {q : Question}

/-- When nothing is asked, what was found out is taken. -/
theorem driveFrom_of_none (h : m.question s = none) :
    m.driveFrom absent (m.question s) attempts s answers = ⟨[], [], answers, m.finish s⟩ := by
  unfold driveFrom
  rw [h]

/-- A question without an answer ends the loop. -/
theorem driveFrom_nil (h : m.question s = some q) :
    m.driveFrom absent (m.question s) attempts s [] =
      ⟨[q], [], [], .error (.promptFailed (absent q))⟩ := by
  unfold driveFrom
  rw [h]

/-- Behind an answer that is accepted, the loop goes on with the next question. -/
theorem driveFrom_cons_of_ok (h : m.question s = some q) (hraw : (m.answer raw).run s = .ok () t) :
    m.driveFrom absent (m.question s) attempts s (raw :: answers) =
      (m.driveFrom absent (m.question t) 0 t answers).ask q := by
  rw [driveFrom.eq_def, h]
  simp only [hraw]

/-- Behind an answer that is refused and leaves no trace, the loop goes on with the same question, or
it ends. -/
theorem driveFrom_cons_of_refused {prompt : String} {objection : Objection}
    (h : m.question s = some q)
    (hraw : (m.answer raw).run s = .error (.invalidAnswer prompt raw objection) s) :
    m.driveFrom absent (m.question s) attempts s (raw :: answers) =
      if attempts + 1 < Dialogue.attemptLimit then
        (m.driveFrom absent (m.question s) (attempts + 1) s answers).reject q
      else ⟨[q], [], answers, .error (.invalidAnswer prompt raw objection)⟩ := by
  rw [driveFrom.eq_def, h]
  simp only [hraw, Problem.isRefusal, Bool.true_and, decide_eq_true_eq]

end Runs

end Machine

namespace Machine

variable {σ τ α ι : Type}

/-- The fields of a machine that hold states of a dialogue go on holding its states. -/
structure Realizes (m : Machine σ α) (d : Dialogue τ α) (Holds : σ → τ → Prop) : Prop where
  /-- The machine puts the question of the state. -/
  question : ∀ {s t}, Holds s t → m.question s = d.question t
  /-- An answer that the dialogue accepts makes the fields hold the next state. -/
  accept : ∀ {s t u raw}, Holds s t → d.answer t raw = .ok u →
    ∃ next, (m.answer raw).run s = .ok () next ∧ Holds next u
  /-- An answer that the dialogue does not accept leaves all fields as they are. -/
  refuse : ∀ {s t e raw}, Holds s t → d.answer t raw = .error e → (m.answer raw).run s = .error e s
  /-- Both find out the same. -/
  finish : ∀ {s t}, Holds s t → m.finish s = d.finish t

variable {m : Machine σ α} {d : Dialogue τ α} {Holds : σ → τ → Prop} {s : σ} {t : τ}
  {absent : Question → String} {attempts : Nat} {answers : List String}

namespace Realizes

/-- After any answers the fields hold a state of the dialogue. -/
theorem exists_afterAll (h : m.Realizes d Holds) (hs : Holds s t) (answers : List String) :
    ∃ u, Holds (m.afterAll s answers) u := by
  induction answers generalizing s t with
  | nil => exact ⟨t, hs⟩
  | cons raw answers ih =>
    change ∃ u, Holds (m.afterAll (m.after s raw) answers) u
    cases hraw : d.answer t raw with
    | ok u =>
      obtain ⟨next, hnext, hholds⟩ := h.accept hs hraw
      rw [after_of_ok hnext]
      exact ih hholds
    | error e =>
      rw [after_of_error (h.refuse hs hraw)]
      exact ih hs

/-- An answer that is not accepted is refused, and it leaves all fields as they are. -/
theorem exists_objection (h : m.Realizes d Holds) (hs : Holds s t) {q : Question} {raw : String}
    {e : Problem} (hq : d.question t = some q) (hraw : d.answer t raw = .error e) :
    ∃ objection, (m.answer raw).run s = .error (.invalidAnswer q.prompt raw objection) s ∧
      e = .invalidAnswer q.prompt raw objection := by
  obtain ⟨objection, rfl⟩ := Dialogue.exists_objection_of_answer hq hraw
  exact ⟨objection, h.refuse hs hraw, rfl⟩

/-- The loop around the machine runs as the dialogue does. -/
theorem driveFrom_eq (h : m.Realizes d Holds) (hs : Holds s t) {run : Transcript α}
    (hrun : d.RunOf absent t attempts answers run) :
    m.driveFrom absent (m.question s) attempts s answers = run := by
  induction hrun generalizing s with
  | finished hq => rw [driveFrom_of_none ((h.question hs).trans hq), h.finish hs]
  | unanswered hq => rw [driveFrom_nil ((h.question hs).trans hq)]
  | accepted hq hraw _ ih =>
    obtain ⟨next, hnext, hholds⟩ := h.accept hs hraw
    rw [driveFrom_cons_of_ok ((h.question hs).trans hq) hnext, ih hholds]
  | refused hq hraw hmore _ ih =>
    obtain ⟨objection, hrefused, rfl⟩ := h.exists_objection hs hq hraw
    rw [driveFrom_cons_of_refused ((h.question hs).trans hq) hrefused, if_pos hmore, ih hs]
  | exhausted hq hraw hlast =>
    obtain ⟨objection, hrefused, rfl⟩ := h.exists_objection hs hq hraw
    rw [driveFrom_cons_of_refused ((h.question hs).trans hq) hrefused,
      if_neg (Nat.not_lt.mpr hlast)]

/-- The whole loop around the machine runs as the whole dialogue does. -/
theorem drive_eq (h : m.Realizes d Holds) (hs : Holds s d.start) :
    m.drive absent s answers = d.drive absent answers :=
  h.driveFrom_eq hs (d.driveFrom_runOf absent d.start 0 answers)

/-- Answers that were refused can be left out of a run that finds out a value. -/
theorem exists_replay (h : m.Realizes d Holds) (hs : Holds s t) {run : Transcript α} {a : α}
    (hrun : d.RunOf absent t attempts answers run) (ha : run.result = .ok a) :
    ∃ used, answers = used ++ run.remaining ∧
      m.driveFrom absent (m.question s) 0 s (m.accepted s used ++ run.remaining) =
        ⟨(m.log s used).filterMap fun e => m.question e.1, [], run.remaining, .ok a⟩ := by
  induction hrun generalizing s with
  | finished hq =>
    refine ⟨[], rfl, ?_⟩
    rw [driveFrom_of_none ((h.question hs).trans hq), h.finish hs]
    exact congrArg (Transcript.mk [] [] _) ha
  | @accepted _ _ _ q raw answers run hq hraw _ ih =>
    have hasks := (h.question hs).trans hq
    obtain ⟨next, hnext, hholds⟩ := h.accept hs hraw
    obtain ⟨used, hused, hreplay⟩ := ih hholds ha
    refine ⟨raw :: used, congrArg (raw :: ·) hused, ?_⟩
    have hasked : (m.log s (raw :: used)).filterMap (fun e => m.question e.1) =
        q :: (m.log next used).filterMap fun e => m.question e.1 := by
      rw [log_cons_of_ok hnext]
      exact List.filterMap_cons_some hasks
    have haccepted : m.accepted s (raw :: used) = raw :: m.accepted next used := by
      rw [accepted, log_cons_of_ok hnext]
      rfl
    rw [haccepted, hasked, List.cons_append, driveFrom_cons_of_ok hasks hnext]
    exact congrArg (Transcript.ask · q) hreplay
  | @refused _ _ _ raw _ _ _ hq hraw _ _ ih =>
    obtain ⟨objection, hrefused, rfl⟩ := h.exists_objection hs hq hraw
    obtain ⟨used, hused, hreplay⟩ := ih hs ha
    refine ⟨raw :: used, congrArg (raw :: ·) hused, ?_⟩
    rw [accepted, log_cons_of_error hrefused]
    exact hreplay
  | unanswered | exhausted => cases ha

/-- A run that ends with a refused answer has refused three in a row, those before included, that were
given with the same fields. -/
theorem exists_refused (h : m.Realizes d Holds) (hs : Holds s t)
    (hattempts : attempts < Dialogue.attemptLimit) {run : Transcript α} {prompt raw : String}
    {objection : Objection} (hrun : d.RunOf absent t attempts answers run)
    (herror : run.result = .error (.invalidAnswer prompt raw objection)) :
    ∃ before refused, answers = before ++ (refused ++ [raw]) ++ run.remaining ∧
      (∀ z ∈ refused ++ [raw], m.Refuses (m.afterAll s before) z) ∧
      (m.answer raw).run (m.afterAll s before) =
        .error (.invalidAnswer prompt raw objection) (m.afterAll s before) ∧
      (refused.length = 2 ∨ before = [] ∧ refused.length + attempts = 2) := by
  have hlimit : Dialogue.attemptLimit = 3 := rfl
  induction hrun generalizing s with
  | finished =>
    rw [Dialogue.finish] at herror
    split at herror <;> cases herror
  | unanswered => cases herror
  | @accepted _ _ _ _ first _ _ _ hraw _ ih =>
    obtain ⟨next, hnext, hholds⟩ := h.accept hs hraw
    obtain ⟨before, refused, hanswers, hall, hlast, hlength⟩ := ih hholds (by omega) herror
    have hafter : m.afterAll s (first :: before) = m.afterAll next before :=
      congrArg (m.afterAll · before) (after_of_ok hnext)
    refine ⟨first :: before, refused, congrArg (first :: ·) hanswers, ?_, ?_, .inl (by omega)⟩
    · rwa [hafter]
    · rwa [hafter]
  | @refused _ _ q first _ _ _ hq hraw hmore _ ih =>
    obtain ⟨objection', hrefused, rfl⟩ := h.exists_objection hs hq hraw
    obtain ⟨before, refused, hanswers, hall, hlast, hlength⟩ := ih hs hmore herror
    rcases hlength with hlength | ⟨rfl, hlength⟩
    · have hafter : m.afterAll s (first :: before) = m.afterAll s before :=
        congrArg (m.afterAll · before) (after_of_error hrefused)
      refine ⟨first :: before, refused, congrArg (first :: ·) hanswers, ?_, ?_, .inl hlength⟩
      · rwa [hafter]
      · rwa [hafter]
    · -- the refused answer is one of the three
      refine ⟨[], first :: refused, congrArg (first :: ·) hanswers, ?_, hlast, .inr ⟨rfl, ?_⟩⟩
      · intro z hz
        rcases List.mem_cons.mp hz with rfl | hz
        · exact ⟨q, objection', (h.question hs).trans hq, hrefused⟩
        · exact hall z hz
      · rw [List.length_cons]
        omega
  | @exhausted _ _ q _ _ _ hq hraw hlast =>
    obtain ⟨objection', hrefused, rfl⟩ := h.exists_objection hs hq hraw
    cases herror
    refine ⟨[], [], rfl, ?_, hrefused, .inr ⟨rfl, ?_⟩⟩
    · intro z hz
      rw [List.mem_singleton.mp hz]
      exact ⟨q, objection, (h.question hs).trans hq, hrefused⟩
    · rw [List.length_nil]
      omega

/-- A machine that realizes a dialogue whose questions do not come back is orderly. -/
theorem isOrderly [Preorder ι] {rank : τ → ι} (h : m.Realizes d Holds) (hrank : d.Advances rank)
    (hs : Holds s d.start) : m.IsOrderly s where
  unchanged answers raw e t ht := by
    obtain ⟨u, hu⟩ := h.exists_afterAll hs answers
    cases hraw : d.answer u raw with
    | ok v =>
      obtain ⟨next, hnext, -⟩ := h.accept hu hraw
      rw [hnext] at ht
      cases ht
    | error e' =>
      rw [h.refuse hu hraw] at ht
      cases ht
      rfl
  bounded absent answers q := by
    rw [h.drive_eq hs]
    exact (hrank.count_add_le (d.driveFrom_runOf absent d.start 0 answers) (by decide)).1
  replays absent answers a ha := by
    have hrun := d.driveFrom_runOf absent d.start 0 answers
    rw [h.drive_eq hs] at ha ⊢
    exact h.exists_replay hs hrun ha
  exhausted absent answers prompt raw objection herror := by
    have hrun := d.driveFrom_runOf absent d.start 0 answers
    rw [h.drive_eq hs] at herror ⊢
    obtain ⟨before, refused, hanswers, hall, hlast, hlength⟩ :=
      h.exists_refused hs (by decide) hrun herror
    have htwo : refused.length = 2 := by omega
    obtain ⟨x, y, rfl⟩ := List.length_eq_two.mp htwo
    exact ⟨before, x, y, hanswers, hall, hlast⟩

end Realizes

end Machine

end AppScaffold
