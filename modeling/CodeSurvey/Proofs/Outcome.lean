/-
# Outcomes

Two steps that may fail give a value exactly if each of them gives one (`Outcome.bind_eq_ok`), and
so does a step for each item of a list (`Outcome.mapM_eq_ok_iff`). What holds of the failures of the
steps holds of the failure of all of them (`Outcome.of_bind_eq_error`, `Outcome.of_mapM_eq_error`).
Steps that fail in one way only, and of which it is known when they do, fail together when one of
them does (`Outcome.FailsIff.bind`, `Outcome.FailsIff.mapM`).
-/

import Mathlib.Data.List.Forall2

namespace CodeSurvey
namespace Outcome

variable {α β ε : Type}

theorem exists_eq_ok {x : Except ε α} (h : x.isOk) : ∃ a, x = .ok a := by
  cases x with
  | error e => cases h
  | ok a => exact ⟨a, rfl⟩

theorem bind_eq_ok {x : Except ε α} {f : α → Except ε β} {b : β} :
    (x >>= f) = .ok b ↔ ∃ a, x = .ok a ∧ f a = .ok b := by
  cases x with
  | ok a => exact ⟨fun h => ⟨a, rfl, h⟩, fun ⟨_, ha, h⟩ => by cases ha; exact h⟩
  | error e => exact ⟨fun h => (nomatch h), fun ⟨_, ha, _⟩ => (nomatch ha)⟩

theorem mapM_eq_ok_iff {f : α → Except ε β} {xs : List α} {ys : List β} :
    xs.mapM f = .ok ys ↔ List.Forall₂ (fun x y => f x = .ok y) xs ys := by
  induction xs generalizing ys with
  | nil =>
    rw [List.mapM_nil, List.forall₂_nil_left_iff]
    exact ⟨fun h => (Except.ok.inj h).symm, fun h => h ▸ rfl⟩
  | cons x xs ih =>
    rw [List.mapM_cons, bind_eq_ok, List.forall₂_cons_left_iff]
    constructor
    · rintro ⟨y, hy, h⟩
      obtain ⟨zs, hzs, h⟩ := bind_eq_ok.1 h
      exact ⟨y, zs, hy, ih.1 hzs, (Except.ok.inj h).symm⟩
    · rintro ⟨y, zs, hy, hzs, rfl⟩
      exact ⟨y, hy, bind_eq_ok.2 ⟨zs, ih.2 hzs, rfl⟩⟩

/-- What holds of the failures of two steps holds of the failure of both. -/
theorem of_bind_eq_error {P : ε → Prop} {x : Except ε α} {f : α → Except ε β}
    (hx : ∀ e, x = .error e → P e) (hf : ∀ a e, f a = .error e → P e) (e : ε)
    (h : (x >>= f) = .error e) : P e := by
  cases x with
  | ok a => exact hf a e h
  | error e' =>
    cases h
    exact hx e rfl

/-- What holds of the failures of a step holds of the failure of the step
for each item of a list. -/
theorem of_mapM_eq_error {P : ε → Prop} {f : α → Except ε β} (hf : ∀ a e, f a = .error e → P e)
    (xs : List α) : ∀ e, xs.mapM f = .error e → P e := by
  induction xs with
  | nil => exact fun e h => nomatch h
  | cons x xs ih =>
    rw [List.mapM_cons]
    exact of_bind_eq_error (hf x) fun b => of_bind_eq_error ih fun bs e h => nomatch h

/-- There is a result for each item of a list exactly if each item has one. -/
theorem exists_forall₂_iff {R : α → β → Prop} {xs : List α} :
    (∃ ys, List.Forall₂ R xs ys) ↔ ∀ x ∈ xs, ∃ y, R x y := by
  induction xs with
  | nil => exact ⟨fun _ x hx => absurd hx List.not_mem_nil, fun _ => ⟨[], .nil⟩⟩
  | cons x xs ih =>
    simp only [List.forall₂_cons_left_iff, List.forall_mem_cons, ← ih]
    constructor
    · rintro ⟨-, y, ys, hy, hys, rfl⟩
      exact ⟨⟨y, hy⟩, ys, hys⟩
    · rintro ⟨⟨y, hy⟩, ys, hys⟩
      exact ⟨y :: ys, y, ys, hy, hys, rfl⟩

/-- Each of several results is one of an item. -/
theorem exists_of_mem_forall₂ {R : α → β → Prop} {xs : List α} {ys : List β}
    (h : List.Forall₂ R xs ys) {y : β} (hy : y ∈ ys) : ∃ x ∈ xs, R x y := by
  induction h with
  | nil => exact absurd hy List.not_mem_nil
  | cons hxy _ ih =>
    rcases List.mem_cons.1 hy with rfl | hy
    · exact ⟨_, List.mem_cons_self .., hxy⟩
    · obtain ⟨x, hx, hrel⟩ := ih hy
      exact ⟨x, List.mem_cons_of_mem _ hx, hrel⟩

/-- What is known of a value that a step gives, together with the fact that it gives one. -/
theorem exists_ok_of_toOption_map {x : Except ε α} {f : α → β} {b : β}
    (h : x.toOption.map f = some b) : ∃ a, x = .ok a ∧ f a = b := by
  cases x with
  | error e => cases h
  | ok a => exact ⟨a, rfl, Option.some.inj h⟩

/-- Whether a step gives a failure exactly if something holds, and else a value. -/
structure FailsIff (x : Except ε α) (e : ε) (p : Prop) : Prop where
  fails : p → x = .error e
  succeeds : ¬ p → ∃ a, x = .ok a

namespace FailsIff

variable {x : Except ε α} {e : ε} {p q : Prop}

theorem ok (a : α) : FailsIff (.ok a : Except ε α) e False := ⟨False.elim, fun _ => ⟨a, rfl⟩⟩

theorem congr (h : FailsIff x e p) (hpq : p ↔ q) : FailsIff x e q := by
  rwa [← hpq]

/-- Two steps fail in one way exactly if one of them does. -/
theorem bind {f : α → Except ε β} (hx : FailsIff x e p) (hf : ∀ a, FailsIff (f a) e q) :
    FailsIff (x >>= f) e (p ∨ q) := by
  by_cases hp : p
  · exact ⟨fun _ => by rw [hx.fails hp]; rfl, fun h => absurd (.inl hp) h⟩
  · obtain ⟨a, rfl⟩ := hx.succeeds hp
    exact ⟨fun h => (hf a).fails (h.resolve_left hp),
      fun h => (hf a).succeeds fun hq => h (.inr hq)⟩

/-- A function of the value does not fail. -/
theorem map (h : FailsIff x e p) (f : α → β) : FailsIff (x.map f) e p where
  fails hp := by rw [h.fails hp]; rfl
  succeeds hp := by
    obtain ⟨a, rfl⟩ := h.succeeds hp
    exact ⟨f a, rfl⟩

/-- A step for each item of a list fails in one way exactly if it does for some item. -/
theorem mapM {f : α → Except ε β} {p : α → Prop} (h : ∀ a, FailsIff (f a) e (p a)) (xs : List α) :
    FailsIff (xs.mapM f) e (∃ a ∈ xs, p a) := by
  induction xs with
  | nil => exact (ok []).congr (by simp)
  | cons a xs ih =>
    rw [List.mapM_cons]
    have hrest (b : β) : FailsIff (xs.mapM f >>= fun bs => pure (b :: bs)) e (∃ a ∈ xs, p a) :=
      (ih.bind fun bs => ok (b :: bs)).congr (by rw [or_false])
    exact ((h a).bind hrest).congr (by simp)

end FailsIff

end Outcome
end CodeSurvey
