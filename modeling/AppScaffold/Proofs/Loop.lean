import Mathlib.Data.Nat.Notation
import Mathlib.Tactic.Common

/-!
# Work that can fail

Work is done step by step, and each step can fail. A loop repeats one step, and goes on only to a state
in which less is left to do; so it ends, with a result or with a failure.
-/

namespace AppScaffold

/-- Work with a result has a first step with a result. -/
theorem exists_of_bind_eq_ok {ε α β : Type} {x : Except ε α} {f : α → Except ε β} {b : β}
    (h : x >>= f = .ok b) : ∃ a, x = .ok a ∧ f a = .ok b := by
  cases x with
  | error e => cases h
  | ok a => exact ⟨a, rfl, h⟩

/-- Behind a step with a result the work goes on with it. -/
theorem bind_of_eq_ok {ε α β : Type} {x : Except ε α} {a : α} (h : x = .ok a) (f : α → Except ε β) :
    x >>= f = f a := by
  rw [h]
  rfl

/-- How a loop goes on after one round. -/
inductive Next (σ α : Type) where
  /-- With another round. -/
  | again (s : σ)
  /-- With what follows the loop. -/
  | done (a : α)

/-- A loop that ends: each round leaves less to do. -/
structure Loop (ε σ α : Type) where
  /-- One round. -/
  round : σ → Except ε (Next σ α)
  /-- How much is left to do. -/
  left : σ → ℕ
  /-- A round that is followed by another leaves less. -/
  advances : ∀ {s s'}, round s = .ok (.again s') → left s' < left s

namespace Loop

variable {ε σ α : Type} {loop : Loop ε σ α} {s s' : σ} {a : α}

/-- What a loop comes to. -/
def run (loop : Loop ε σ α) (s : σ) : Except ε α :=
  match _ : loop.round s with
  | .error e => .error e
  | .ok (.done a) => .ok a
  | .ok (.again s') => loop.run s'
termination_by loop.left s
decreasing_by exact loop.advances ‹_›

/-- A loop goes on from where a round leaves it. -/
theorem run_again (h : loop.round s = .ok (.again s')) : loop.run s = loop.run s' := by
  rw [run]
  split
  · next hround => cases h.symm.trans hround
  · next hround => cases h.symm.trans hround
  · next hround =>
    cases h.symm.trans hround
    rfl

/-- A loop ends with its last round. -/
theorem run_done (h : loop.round s = .ok (.done a)) : loop.run s = .ok a := by
  rw [run]
  split
  · next hround => cases h.symm.trans hround
  · next hround =>
    cases h.symm.trans hround
    rfl
  · next hround => cases h.symm.trans hround

/-- What holds of the result of the last round, and is handed on by every other, holds of the result of
the loop. -/
theorem run_induction {P : σ → α → Prop} (hdone : ∀ s a, loop.round s = .ok (.done a) → P s a)
    (hagain : ∀ s s' a, loop.round s = .ok (.again s') → P s' a → P s a) (h : loop.run s = .ok a) :
    P s a := by
  fun_induction run loop s with
  | case1 => cases h
  | case2 s b hround =>
    cases h
    exact hdone s a hround
  | case3 s s' hround ih => exact hagain s s' a hround (ih h)

end Loop

end AppScaffold
