import AppScaffold.Dialogue.Basic
import Mathlib.Order.Basic
import Mathlib.Tactic.Common

/-!
# Runs of a dialogue

A dialogue goes on with each answer until nothing is asked any more, until the answers have run out, or
until the last attempt at a question has failed. `RunOf` has a case for each of these ends and one for
each way to go on, and a dialogue runs as it says. What holds of every run is shown by induction on it:
no question comes back once it has been answered, so none is put more often than there are attempts.
-/

namespace AppScaffold

namespace Dialogue

variable {τ α : Type}

/-- How a dialogue may run from a state on, with the number of answers that have been refused there and
with the answers that are still to come. -/
inductive RunOf (d : Dialogue τ α) (absent : Question → String) :
    τ → ℕ → List String → Transcript α → Prop
  /-- Nothing is asked any more. -/
  | finished {t : τ} {attempts : ℕ} {answers : List String} (hq : d.question t = none) :
      RunOf d absent t attempts answers ⟨[], [], answers, d.finish t⟩
  /-- There is no answer to the question. -/
  | unanswered {t : τ} {attempts : ℕ} {q : Question} (hq : d.question t = some q) :
      RunOf d absent t attempts [] ⟨[q], [], [], .error (.promptFailed (absent q))⟩
  /-- The answer is accepted, and the next state begins without refused answers. -/
  | accepted {t u : τ} {attempts : ℕ} {q : Question} {raw : String} {answers : List String}
      {run : Transcript α} (hq : d.question t = some q) (hraw : d.answer t raw = .ok u)
      (hrest : RunOf d absent u 0 answers run) :
      RunOf d absent t attempts (raw :: answers) (run.ask q)
  /-- The answer is refused, and the question is put again. -/
  | refused {t : τ} {attempts : ℕ} {q : Question} {raw : String} {e : Problem} {answers : List String}
      {run : Transcript α} (hq : d.question t = some q) (hraw : d.answer t raw = .error e)
      (hmore : attempts + 1 < attemptLimit) (hrest : RunOf d absent t (attempts + 1) answers run) :
      RunOf d absent t attempts (raw :: answers) (run.reject q)
  /-- The answer is refused, and it was the last attempt. -/
  | exhausted {t : τ} {attempts : ℕ} {q : Question} {raw : String} {e : Problem}
      {answers : List String} (hq : d.question t = some q) (hraw : d.answer t raw = .error e)
      (hlast : attemptLimit ≤ attempts + 1) :
      RunOf d absent t attempts (raw :: answers) ⟨[q], [], answers, .error e⟩

/-- A dialogue runs in one of these ways. -/
theorem driveFrom_runOf (d : Dialogue τ α) (absent : Question → String) (t : τ) (attempts : ℕ)
    (answers : List String) :
    d.RunOf absent t attempts answers (d.driveFrom absent t attempts answers) := by
  induction answers generalizing t attempts with
  | nil =>
    unfold driveFrom
    split
    · next hq => exact .finished hq
    · next q hq => exact .unanswered hq
  | cons raw answers ih =>
    unfold driveFrom
    split
    · next hq => exact .finished hq
    · next q hq =>
      dsimp only
      split
      · next u hraw => exact .accepted hq hraw (ih u 0)
      · next e hraw =>
        split_ifs with hlast
        · exact .exhausted hq hraw hlast
        · exact .refused hq hraw (Nat.not_le.mp hlast) (ih t _)

/-- An answer that is not accepted is the answer to a question, and it is refused. -/
theorem exists_objection_of_answer {d : Dialogue τ α} {t : τ} {q : Question} {raw : String}
    {e : Problem} (hq : d.question t = some q) (h : d.answer t raw = .error e) :
    ∃ objection, e = .invalidAnswer q.prompt raw objection := by
  unfold answer at h
  rw [hq] at h
  dsimp only at h
  split at h
  · cases h
  · next objection _ => exact ⟨objection, (Except.error.inj h).symm⟩

variable {ι : Type} [Preorder ι]

/-- The states of a dialogue have ranks. An answer that is accepted leads to a higher one, and states
with the same question have the same rank. -/
structure Advances (d : Dialogue τ α) (rank : τ → ι) : Prop where
  /-- The rank rises with each answer that is accepted. -/
  rises : ∀ {t u : τ} {raw : String}, d.answer t raw = .ok u → rank t < rank u
  /-- A question has one rank. -/
  same : ∀ {t u : τ} {q : Question}, d.question t = some q → d.question u = some q →
    rank t = rank u

variable {d : Dialogue τ α} {rank : τ → ι} {absent : Question → String} {t : τ} {attempts : ℕ}
  {answers : List String} {run : Transcript α} {q : Question}

/-- A question of a lower rank does not come back. -/
theorem Advances.notMem_asked (h : d.Advances rank) (hrun : d.RunOf absent t attempts answers run)
    {u : τ} (hu : d.question u = some q) (hlt : rank u < rank t) : q ∉ run.asked := by
  have hother : ∀ {t : τ} {q' : Question}, rank u < rank t → d.question t = some q' → q ≠ q' :=
    fun hlt hq' heq => hlt.ne (h.same hu (heq ▸ hq'))
  induction hrun with
  | finished => exact List.not_mem_nil
  | unanswered hq | exhausted hq => exact fun hmem => hother hlt hq (List.mem_singleton.mp hmem)
  | accepted hq hraw _ ih =>
    exact List.not_mem_cons_of_ne_of_not_mem (hother hlt hq) (ih (hlt.trans (h.rises hraw)))
  | refused hq _ _ _ ih => exact List.not_mem_cons_of_ne_of_not_mem (hother hlt hq) (ih hlt)

/-- A question is put at most three times, and one that is open only as often as the answers that
have been refused before leave over. -/
theorem Advances.count_add_le (h : d.Advances rank) (hrun : d.RunOf absent t attempts answers run)
    (hattempts : attempts < attemptLimit) :
    run.asked.count q ≤ attemptLimit ∧
      (d.question t = some q → run.asked.count q + attempts ≤ attemptLimit) := by
  have hlimit : attemptLimit = 3 := rfl
  induction hrun with
  | finished hq => simp [hq]
  | @unanswered _ _ q' | @exhausted _ _ q' =>
    have hone : [q'].count q ≤ 1 := List.count_le_length
    dsimp only
    omega
  | @accepted _ _ _ q' _ _ run hq hraw hrest ih =>
    have hlater := (ih (by omega)).1
    by_cases heq : q' = q
    · -- the open question is put once, for it does not come back
      subst heq
      have hzero : run.asked.count q' = 0 :=
        List.count_eq_zero.mpr (h.notMem_asked hrest hq (h.rises hraw))
      have hcount : (run.ask q').asked.count q' = run.asked.count q' + 1 := List.count_cons_self
      omega
    · have hcount : (run.ask q').asked.count q = run.asked.count q := List.count_cons_of_ne heq
      exact ⟨by omega, fun hq' => absurd (Option.some.inj (hq.symm.trans hq')) heq⟩
  | @refused _ _ q' _ _ _ run hq _ hmore _ ih =>
    obtain ⟨hall, hagain⟩ := ih hmore
    by_cases heq : q' = q
    · subst heq
      have hcount : (run.reject q').asked.count q' = run.asked.count q' + 1 := List.count_cons_self
      have hsum := hagain hq
      omega
    · have hcount : (run.reject q').asked.count q = run.asked.count q := List.count_cons_of_ne heq
      exact ⟨by omega, fun hq' => absurd (Option.some.inj (hq.symm.trans hq')) heq⟩

end Dialogue

end AppScaffold
