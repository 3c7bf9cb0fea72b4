/-
# Journals

A computation of a survey has a value and a journal: what it recorded on the way, in order. Four
kinds of entry occur: a warning, a note for the log, `advance d t` when `d` of `t` items are done,
and a step of the overall progress. A computation reads nothing of what was recorded before it, so
two computations one after the other have the journals one after the other (`bind_entries`), and a
computation that fails keeps the entries it made before it failed.
-/

import CodeSurvey.Failure

namespace CodeSurvey

/-- A recoverable problem: the step that met it, what happened, and why. -/
structure Warning where
  step : String
  message : String
  detail : Option String := none
  deriving DecidableEq, Repr

/-- How much a note for the log matters. -/
inductive Severity
  | debug
  | info
  | warning
  | error
  | critical
  deriving DecidableEq, Repr

/-- One thing recorded. -/
inductive Entry
  | warning (w : Warning)
  | note (severity : Severity) (text : String)
  | advance (done total : Nat)
  | progress (stage label : String) (amount : Binary64)

/-- A value and what was recorded while it was computed. -/
structure Recorded (α : Type) where
  value : α
  entries : List Entry

namespace Recorded

instance : Monad Recorded where
  pure a := ⟨a, []⟩
  bind x f := ⟨(f x.value).value, x.entries ++ (f x.value).entries⟩

theorem pure_entries {α : Type} (a : α) : (pure a : Recorded α).entries = [] := rfl

theorem bind_entries {α β : Type} (x : Recorded α) (f : α → Recorded β) :
    (x >>= f).entries = x.entries ++ (f x.value).entries := rfl

theorem bind_value {α β : Type} (x : Recorded α) (f : α → Recorded β) :
    (x >>= f).value = (f x.value).value := rfl

instance : LawfulMonad Recorded := by
  refine LawfulMonad.mk' Recorded ?_ ?_ ?_
  · intro α x
    show Recorded.mk x.value (x.entries ++ []) = x
    rw [List.append_nil]
  · intro α β a f
    show Recorded.mk (f a).value ([] ++ (f a).entries) = f a
    rw [List.nil_append]
  · intro α β γ x f g
    show Recorded.mk _ ((x.entries ++ (f x.value).entries) ++ (g (f x.value).value).entries) =
      Recorded.mk _ (x.entries ++ ((f x.value).entries ++ (g (f x.value).value).entries))
    rw [List.append_assoc]
    rfl

/-- A computation that records one entry. -/
def tell (e : Entry) : Recorded Unit := ⟨(), [e]⟩

/-- The computation with each entry replaced by others. -/
def relabel {α : Type} (f : Entry → List Entry) (x : Recorded α) : Recorded α :=
  ⟨x.value, x.entries.flatMap f⟩

/-- The warnings recorded. -/
def warnings {α : Type} (x : Recorded α) : List Warning :=
  x.entries.filterMap fun e => match e with | .warning w => some w | _ => none

end Recorded

/-- The warnings among the entries. -/
def warningsOf (es : List Entry) : List Warning :=
  es.filterMap fun e => match e with | .warning w => some w | _ => none

/-- The warnings that name a step. -/
def warningsFor (step : String) (ws : List Warning) : List Warning := ws.filter (·.step == step)

/-- A computation that may fail; what it recorded before failing stays. -/
abbrev Attempt := ExceptT Failure Recorded

/-- The outcome of a computation that may fail, as a value. -/
def Attempt.outcome {α : Type} (x : Attempt α) : Recorded (Except Failure α) := ExceptT.run x

/-- An outcome that records nothing. -/
def Attempt.ofOutcome {α : Type} (x : Except Failure α) : Attempt α := ExceptT.mk (pure x)

/-- Records a warning. -/
def warn (step message : String) (detail : Option String := none) : Recorded Unit :=
  Recorded.tell (.warning ⟨step, message, detail⟩)

/-- Records a note of ordinary weight. -/
def inform (text : String) : Recorded Unit := Recorded.tell (.note .info text)

end CodeSurvey
