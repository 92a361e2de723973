/-!
# Questions

What is asked in a dialogue, and what kind of answer is expected.
-/

namespace AppScaffold

/-- The kind of answer that a question expects. -/
inductive QuestionKind where
  /-- Free text, perhaps with a proposal. -/
  | text (default : Option String)
  /-- Yes or no, with a proposal. -/
  | yesNo (default : Bool)
  /-- One entry of a menu. -/
  | choice (choices : List String)
deriving DecidableEq, Repr

/-- A question. -/
structure Question where
  /-- The text that is shown. -/
  prompt : String
  /-- The answer that is expected. -/
  kind : QuestionKind
deriving DecidableEq, Repr

end AppScaffold
