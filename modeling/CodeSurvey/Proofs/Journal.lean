/-
# Reading journals

A computation reads nothing of what was recorded before it, so the warnings of two computations one
after the other are those of the first and then those of the second (`Recorded.warnings_bind`).
Notes and steps of progress are no warnings. A computation that may fail gives a value exactly if
each of its steps gives one (`Attempt.value_bind_eq_ok`).
-/

import CodeSurvey.Journal

namespace CodeSurvey
namespace Recorded

variable {α β : Type}

@[ext] theorem ext {x y : Recorded α} (hvalue : x.value = y.value)
    (hentries : x.entries = y.entries) : x = y := by
  obtain ⟨a, es⟩ := x
  obtain ⟨b, fs⟩ := y
  rw [mk.injEq]
  exact ⟨hvalue, hentries⟩

@[simp] theorem value_pure (a : α) : (pure a : Recorded α).value = a := rfl

@[simp] theorem warnings_pure (a : α) : (pure a : Recorded α).warnings = [] := rfl

@[simp] theorem value_bind (x : Recorded α) (f : α → Recorded β) :
    (x >>= f).value = (f x.value).value := rfl

/-- What comes after a computation matters at its value alone. -/
theorem bind_congr {x : Recorded α} {f g : α → Recorded β} (h : f x.value = g x.value) :
    x >>= f = x >>= g := by
  ext
  · rw [value_bind, value_bind, h]
  · rw [bind_entries, bind_entries, h]

@[simp] theorem warnings_bind (x : Recorded α) (f : α → Recorded β) :
    (x >>= f).warnings = x.warnings ++ (f x.value).warnings := by
  rw [warnings, bind_entries, List.filterMap_append]
  rfl

/-- Relabelling that keeps warnings and makes none of other entries leaves the
warnings as they are. -/
theorem warnings_relabel {f : Entry → List Entry}
    (hf : ∀ e, warningsOf (f e) = warningsOf [e]) (x : Recorded α) :
    (x.relabel f).warnings = x.warnings := by
  obtain ⟨a, es⟩ := x
  show warningsOf (es.flatMap f) = warningsOf es
  induction es with
  | nil => rfl
  | cons e es ih =>
    have hcons : warningsOf (e :: es) = warningsOf [e] ++ warningsOf es := by
      rw [← List.singleton_append, warningsOf, List.filterMap_append]
      rfl
    rw [hcons, ← ih, ← hf e, List.flatMap_cons, warningsOf, List.filterMap_append]
    rfl

/-- A computation for each item of a list gives the list of their values. -/
theorem value_mapM (f : α → Recorded β) (xs : List α) :
    (xs.mapM f).value = xs.map fun x => (f x).value := by
  induction xs with
  | nil => rfl
  | cons x xs ih => rw [List.mapM_cons, value_bind, value_bind, ih]; rfl

/-- A computation for each item of a list records what each of them records, in order. -/
theorem entries_mapM (f : α → Recorded β) (xs : List α) :
    (xs.mapM f).entries = xs.flatMap fun x => (f x).entries := by
  induction xs with
  | nil => rfl
  | cons x xs ih =>
    rw [List.mapM_cons, bind_entries, bind_entries, ih, pure_entries, List.append_nil,
      List.flatMap_cons]

/-- A computation for each item of a list warns of what each of them warns, in order. -/
theorem warnings_mapM (f : α → Recorded β) (xs : List α) :
    (xs.mapM f).warnings = xs.flatMap fun x => (f x).warnings := by
  induction xs with
  | nil => rfl
  | cons x xs ih =>
    rw [List.mapM_cons, warnings_bind, warnings_bind, ih, warnings_pure, List.append_nil,
      List.flatMap_cons]

end Recorded

@[simp] theorem warnings_inform (text : String) : (inform text).warnings = [] := rfl

namespace Attempt

variable {α β : Type}

@[simp] theorem outcome_ofOutcome (x : Except Failure α) : (ofOutcome x).outcome = pure x := rfl

/-- What cannot fail gives its value. -/
@[simp] theorem outcome_lift (x : Recorded α) :
    (liftM x : Attempt α).outcome = x >>= fun a => pure (.ok a) := rfl

@[simp] theorem value_lift (x : Recorded α) :
    (liftM x : Attempt α).outcome.value = .ok x.value := rfl

theorem outcome_bind (x : Attempt α) (f : α → Attempt β) :
    (x >>= f).outcome = x.outcome >>= fun r =>
      match r with
      | .ok a => (f a).outcome
      | .error e => pure (.error e) := by
  show (x.outcome >>= ExceptT.bindCont f) = _
  congr 1
  funext r
  cases r <;> rfl

/-- A function of the value leaves a failure as it is. -/
theorem outcome_map (f : α → β) (x : Attempt α) :
    (f <$> x).outcome = x.outcome >>= fun r => pure (f <$> r) := by
  rw [map_eq_pure_bind, outcome_bind]
  congr 1
  funext r
  cases r <;> rfl

/-- Two steps give a value exactly if both give one. -/
theorem value_bind_eq_ok {x : Attempt α} {f : α → Attempt β} {b : β} :
    (x >>= f).outcome.value = .ok b ↔ ∃ a, x.outcome.value = .ok a ∧
      (f a).outcome.value = .ok b := by
  rw [outcome_bind, Recorded.value_bind]
  cases h : x.outcome.value with
  | ok a => simp
  | error e => simp

/-- After a step that cannot fail the computation goes on with its value. -/
@[simp] theorem value_lift_bind (x : Recorded α) (f : α → Attempt β) :
    ((liftM x : Attempt α) >>= f).outcome.value = (f x.value).outcome.value := rfl

@[simp] theorem warnings_lift_bind (x : Recorded α) (f : α → Attempt β) :
    ((liftM x : Attempt α) >>= f).outcome.warnings = x.warnings ++
      (f x.value).outcome.warnings := by
  rw [outcome_bind, outcome_lift, Recorded.warnings_bind, Recorded.warnings_bind,
    Recorded.warnings_pure, List.append_nil]
  rfl

/-- After a step that cannot fail the computation goes on recording. -/
theorem entries_lift_bind (x : Recorded α) (f : α → Attempt β) :
    ((liftM x : Attempt α) >>= f).outcome.entries = x.entries ++ (f x.value).outcome.entries := by
  rw [outcome_bind, outcome_lift, Recorded.bind_entries, Recorded.bind_entries,
    Recorded.pure_entries, List.append_nil]
  rfl

end Attempt
end CodeSurvey
