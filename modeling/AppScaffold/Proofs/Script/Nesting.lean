import AppScaffold.Proofs.Script.Registry
import Mathlib.Data.List.Basic
import Mathlib.Tactic.Common

/-!
# Entries made of pieces

The entry of an artifact is fixed text around the name of the artifact, once in a string and otherwise
in code. The brackets are in the fixed text, so that they can be counted piece by piece.
-/

namespace AppScaffold.Script

/-- A piece that is read apart from its surroundings and leads from `a` open brackets to `b`. -/
structure Nests (a b : Nat) (p : List Char) : Prop where
  /-- It begins and ends in code. -/
  settled : Settled p
  /-- It opens and closes brackets. -/
  depth : depthAfter a (roles .code p) = some b

namespace Nests

variable {a b c : Nat} {p q : List Char}

/-- Pieces lead on from each other. -/
theorem append (hp : Nests a b p) (hq : Nests b c q) : Nests a c (p ++ q) := by
  refine ⟨hp.settled.append hq.settled, ?_⟩
  rw [hp.settled.roles_append, depthAfter_append, hp.depth]
  exact hq.depth

/-- A piece that closes what it opens is closed. -/
theorem isClosed (hp : Nests 0 0 p) : IsClosed p := ⟨(hp.settled none).2, hp.depth⟩

/-- Code without quotes and slashes is read character by character. -/
theorem of_plain (hplain : ∀ c ∈ p, isPlain c = true)
    (hdepth : depthAfter a (p.map (·, .code)) = some b) : Nests a b p := by
  have hslash : p.getLast? ≠ some '/' := by
    intro hlast
    have hmem := hplain '/' (List.mem_of_getLast? hlast)
    exact absurd hmem (by decide)
  refine ⟨settled_of_modeAfter (read_plain hplain none).2 hslash, ?_⟩
  rw [roles_eq_rolesBefore, (read_plain hplain none).1]
  exact hdepth

/-- Code without brackets keeps the depth. -/
theorem of_name (hp : ∀ c ∈ p, isPlain c = true ∧ isOpening c = false ∧ isClosing c = false) :
    Nests a a p := by
  refine of_plain (fun c hc => (hp c hc).1) ?_
  induction p with
  | nil => rfl
  | cons c p ih =>
    obtain ⟨-, hopen, hclose⟩ := hp c List.mem_cons_self
    have hstep : depthStep a (c, .code) = some a := by
      rw [depthStep, hopen, hclose]
      rfl
    rw [List.map_cons, depthAfter, hstep]
    exact ih fun d hd => hp d (List.mem_cons_of_mem _ hd)

/-- What stands in a string is not counted. -/
theorem of_quoted (hp : ∀ c ∈ p, c ≠ '\x22' ∧ c ≠ '\\') :
    Nests a a ('\x22' :: (p ++ ['\x22'])) := by
  have hread : ∀ next, rolesBefore next (.quote '\x22') (p ++ ['\x22']) =
        p.map (·, .quoted) ++ [('\x22', .quoteEnd)] ∧
      modeAfter next (.quote '\x22') (p ++ ['\x22']) = .code := by
    intro next
    induction p with
    | nil => exact ⟨rfl, rfl⟩
    | cons c p ih =>
      obtain ⟨hmark, hback⟩ := hp c List.mem_cons_self
      have hstep : ∀ next, (Mode.quote '\x22').step c next = (.quoted, .quote '\x22') := by
        intro next
        rw [Mode.step, if_neg hback, if_neg hmark]
      obtain ⟨hroles, hmode⟩ := ih fun d hd => hp d (List.mem_cons_of_mem _ hd)
      rw [List.cons_append, rolesBefore, modeAfter, hstep, hroles, hmode]
      exact ⟨rfl, rfl⟩
  have hall : ∀ next, rolesBefore next .code ('\x22' :: (p ++ ['\x22'])) =
        ('\x22', .quoteStart) :: (p.map (·, .quoted) ++ [('\x22', .quoteEnd)]) ∧
      modeAfter next .code ('\x22' :: (p ++ ['\x22'])) = .code := by
    intro next
    have hopen : ∀ next, Mode.code.step '\x22' next = (.quoteStart, .quote '\x22') :=
      step_quote (by decide)
    rw [rolesBefore, modeAfter, hopen, (hread next).1, (hread next).2]
    exact ⟨rfl, rfl⟩
  have hcounted : ∀ ps : List Char, depthAfter a (ps.map (·, .quoted) ++ [('\x22', .quoteEnd)]) =
      some a := by
    intro ps
    induction ps with
    | nil => rfl
    | cons c ps ih => exact ih
  refine ⟨fun next => ?_, ?_⟩
  · rw [roles_eq_rolesBefore, (hall next).1, (hall none).1]
    exact ⟨rfl, (hall next).2⟩
  · rw [roles_eq_rolesBefore, (hall none).1]
    exact hcounted p

end Nests

end AppScaffold.Script
