import AppScaffold.Dialogue.Question
import AppScaffold.Problem

/-!
# Dialogues

A dialogue asks one question after another until it knows what it was to find out. An answer that
is refused leaves it where it was, and the question is asked again, three times in all. Nothing is
ever asked twice once it has been answered.
-/

namespace AppScaffold

/-- A dialogue with states of type `σ` that finds out a value of type `α`. -/
structure Dialogue (σ α : Type) where
  /-- What the dialogue is about. -/
  topic : String
  /-- The state before the first question. -/
  start : σ
  /-- What is asked in a state; nothing at the end. -/
  question : σ → Option Question
  /-- The state after an answer to the question of a state. -/
  respond : σ → String → Except Objection σ
  /-- What has been found out at the end. -/
  result : σ → Option α

/-- The course of a dialogue. -/
structure Transcript (α : Type) where
  /-- The questions as they were asked. -/
  asked : List Question
  /-- The questions that had to be asked again. -/
  rejected : List Question
  /-- The answers that were not used. -/
  remaining : List String
  /-- What was found out. -/
  result : Except Problem α

/-- The course with one more question before it. -/
def Transcript.ask {α : Type} (t : Transcript α) (q : Question) : Transcript α :=
  { t with asked := q :: t.asked }

/-- The course with one more question before it whose answer was refused. -/
def Transcript.reject {α : Type} (t : Transcript α) (q : Question) : Transcript α :=
  { t with asked := q :: t.asked, rejected := q :: t.rejected }

namespace Dialogue

variable {σ α : Type}

/-- More is to be asked, or nothing is asked any more. -/
def unfinished (d : Dialogue σ α) : Problem :=
  .promptFailed (d.topic ++ " flow finished before all questions were answered")

/-- The state after an answer. -/
def answer (d : Dialogue σ α) (s : σ) (raw : String) : Except Problem σ :=
  match d.question s with
  | none => .error d.unfinished
  | some q =>
    match d.respond s raw with
    | .ok next => .ok next
    | .error objection => .error (.invalidAnswer q.prompt raw objection)

/-- What has been found out in a state. -/
def finish (d : Dialogue σ α) (s : σ) : Except Problem α :=
  match d.result s with
  | some a => .ok a
  | none => .error d.unfinished

/-- How often a question is asked. -/
def attemptLimit : Nat := 3

/-- The dialogue from a state on, with the given answers; `attempts` answers to the question of the
state have been refused. `absent` says why there is no answer when they have run out. -/
def driveFrom (d : Dialogue σ α) (absent : Question → String) (s : σ) (attempts : Nat)
    (answers : List String) : Transcript α :=
  match d.question s with
  | none => ⟨[], [], answers, d.finish s⟩
  | some q =>
    match answers with
    | [] => ⟨[q], [], [], .error (.promptFailed (absent q))⟩
    | raw :: rest =>
      match d.answer s raw with
      | .ok next => (d.driveFrom absent next 0 rest).ask q
      | .error e =>
        if attemptLimit ≤ attempts + 1 then ⟨[q], [], rest, .error e⟩
        else (d.driveFrom absent s (attempts + 1) rest).reject q
termination_by structural answers

/-- The whole dialogue. -/
def drive (d : Dialogue σ α) (absent : Question → String) (answers : List String) : Transcript α :=
  d.driveFrom absent d.start 0 answers

/-- Why there is no answer when a list of answers has run out. -/
def noScriptedAnswer (q : Question) : String := "no scripted answer for \"" ++ q.prompt ++ "\""

end Dialogue

end AppScaffold
