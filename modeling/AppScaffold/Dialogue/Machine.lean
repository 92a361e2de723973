import AppScaffold.Dialogue.Basic

/-!
# Machines that hold dialogues

A machine holds what a dialogue has found out in fields that an answer overwrites in place. Nothing
takes a write back when an answer is refused further on: whatever a refused answer has written stays,
unless the machine itself writes the old value again. The loop around a machine puts its question and
hands it the answers.
-/

namespace AppScaffold

/-- An answer is read by a rule; if the rule objects to it, the answer is refused. -/
def Question.check {σ α : Type} (q : Question) (raw : String) (x : Except Objection α) :
    EStateM Problem σ α :=
  match x with
  | .ok a => pure a
  | .error objection => throw (.invalidAnswer q.prompt raw objection)

/-- An answer was refused, and the question can be put again. -/
def Problem.isRefusal : Problem → Bool
  | invalidAnswer .. => true
  | _ => false

/-- A machine with fields of type `σ` that finds out a value of type `α`. -/
structure Machine (σ α : Type) where
  /-- What is asked; nothing at the end. -/
  question : σ → Option Question
  /-- What an answer writes into the fields, whether it is accepted or not. -/
  answer : String → EStateM Problem σ Unit
  /-- What has been found out at the end. -/
  finish : σ → Except Problem α

/-- More is to be asked about a topic, or nothing is asked any more. -/
def Machine.unfinished (topic : String) : Problem :=
  .promptFailed (topic ++ " flow finished before all questions were answered")

namespace Machine

variable {σ α : Type}

/-- The loop around a machine with the question that is open, if one is. The question stays the same
while its answers are refused, and `attempts` of them have been. `absent` says why there is no answer
when they have run out. -/
def driveFrom (m : Machine σ α) (absent : Question → String) (open? : Option Question)
    (attempts : Nat) (s : σ) (answers : List String) : Transcript α :=
  match open? with
  | none => ⟨[], [], answers, m.finish s⟩
  | some q =>
    match answers with
    | [] => ⟨[q], [], [], .error (.promptFailed (absent q))⟩
    | raw :: rest =>
      match (m.answer raw).run s with
      | .ok () next => (m.driveFrom absent (m.question next) 0 next rest).ask q
      | .error e next =>
        if e.isRefusal && attempts + 1 < Dialogue.attemptLimit then
          (m.driveFrom absent (some q) (attempts + 1) next rest).reject q
        else ⟨[q], [], rest, .error e⟩
termination_by structural answers

/-- The whole loop around a machine. -/
def drive (m : Machine σ α) (absent : Question → String) (s : σ) (answers : List String) :
    Transcript α :=
  m.driveFrom absent (m.question s) 0 s answers

end Machine

end AppScaffold
