/-
  File:      Rtx/Lib/Outcome.lean
  Subject:   Rules for computations that return a value or fail.

  `Ends x E P`: if `x` returns, its value satisfies `P`; if it fails, its error satisfies `E`. With
  `E` false everywhere this is total correctness, with `E` true everywhere partial correctness.
  The rules follow the structure of a computation: a bind is handled by `Ends.bind`, a branch by
  `Ends.ite`.
-/
namespace Rtx.Lib

universe u v w

variable {φ : Type u} {α : Type v} {β : Type w} {x : Except φ α} {E E' : φ → Prop}
  {P P' : α → Prop} {Q : β → Prop} {a : α} {e : φ}

/-- If `x` returns, its value satisfies `P`; if it fails, its error satisfies `E`. -/
def Ends (x : Except φ α) (E : φ → Prop) (P : α → Prop) : Prop :=
  match x with
  | .ok a => P a
  | .error e => E e

/-- If `x` returns, its value satisfies `P`. -/
abbrev Post (x : Except φ α) (P : α → Prop) : Prop := Ends x (fun _ => True) P

/-- `x` returns. -/
abbrev Succeeds (x : Except φ α) : Prop := Ends x (fun _ => False) fun _ => True

@[simp] theorem ends_ok : Ends (.ok a : Except φ α) E P ↔ P a := Iff.rfl

@[simp] theorem ends_error : Ends (.error e : Except φ α) E P ↔ E e := Iff.rfl

@[simp] theorem ends_pure : Ends (pure a : Except φ α) E P ↔ P a := Iff.rfl

@[simp] theorem ends_throw : Ends (throw e : Except φ α) E P ↔ E e := Iff.rfl

theorem Ends.of_ok (h : Ends x E P) (hx : x = .ok a) : P a := by
  rw [hx] at h
  exact h

theorem Ends.of_error (h : Ends x E P) (hx : x = .error e) : E e := by
  rw [hx] at h
  exact h

/-- A computation that is known to return `a`. -/
theorem Ends.intro_ok (hx : x = .ok a) (h : P a) : Ends x E P := by
  rw [hx]
  exact h

theorem toOption_eq_some : x.toOption = some a ↔ x = .ok a := by
  cases x <;> simp [Except.toOption]

theorem Ends.mono (h : Ends x E P) (hE : ∀ e, E e → E' e) (hP : ∀ a, P a → P' a) :
    Ends x E' P' := by
  cases x with
  | ok a => exact hP a h
  | error e => exact hE e h

theorem Ends.imp (h : Ends x E P) (hP : ∀ a, P a → P' a) : Ends x E P' := h.mono (fun _ => id) hP

/-- What is known of the errors and of the values separately. -/
theorem Ends.and (h : Ends x E P) (h' : Ends x E' P') :
    Ends x (fun e => E e ∧ E' e) fun a => P a ∧ P' a := by
  cases x with
  | ok a => exact ⟨h, h'⟩
  | error e => exact ⟨h, h'⟩

/-- The errors are forgotten. -/
theorem Ends.post (h : Ends x E P) : Post x P := h.mono (fun _ _ => True.intro) fun _ => id

/-- What two specifications say of a value. -/
theorem Ends.both (h : Ends x E P) (h' : Ends x E' P') : Post x fun a => P a ∧ P' a :=
  (h.and h').post

theorem Ends.trivial : Ends x (fun _ => True) fun _ => True := by
  cases x <;> exact True.intro

/-- What is known of a value is that it was returned. -/
theorem Ends.returned : Post x fun a => x = .ok a := by
  cases x with
  | ok a => exact rfl
  | error e => exact True.intro

theorem Succeeds.of_ok (h : x = .ok a) : Succeeds x := Ends.intro_ok h True.intro

/-- A computation that cannot fail. -/
theorem Ends.exists_ok (h : Ends x (fun _ => False) P) : ∃ a, x = .ok a ∧ P a := by
  cases x with
  | ok a => exact ⟨a, rfl, h⟩
  | error e => exact h.elim

section Bind

variable {α β : Type v} {x : Except φ α} {P : α → Prop} {Q : β → Prop} {f : α → Except φ β} {a : α}

theorem ends_bind : Ends (x >>= f) E Q ↔ Ends x E fun a => Ends (f a) E Q := by
  cases x <;> exact Iff.rfl

/-- The rule of sequencing. -/
theorem Ends.bind (h : Ends x E P) (hf : ∀ a, P a → Ends (f a) E Q) : Ends (x >>= f) E Q :=
  ends_bind.mpr (h.imp hf)

/-- Sequencing behind a part that is known to return `a`. -/
theorem Ends.bind_ok (hx : x = .ok a) (h : Ends (f a) E Q) : Ends (x >>= f) E Q := by
  rw [hx]
  exact h

theorem bind_of_ok (hx : x = .ok a) : x >>= f = f a := by
  rw [hx]
  rfl

/-- Sequencing behind a part that returns. -/
theorem Succeeds.bind (hx : Succeeds x) (hf : ∀ a, x = .ok a → Ends (f a) E Q) :
    Ends (x >>= f) E Q := by
  obtain ⟨a, ha, -⟩ := hx.exists_ok
  exact Ends.bind_ok ha (hf a ha)

/-- A computation returns only if its first part does. -/
theorem bind_eq_ok {b : β} : x >>= f = .ok b ↔ ∃ a, x = .ok a ∧ f a = .ok b := by
  cases x with
  | ok a => exact ⟨fun h => ⟨a, rfl, h⟩, fun ⟨_, h1, h2⟩ => Except.ok.inj h1 ▸ h2⟩
  | error e => exact ⟨fun h => (by cases h), fun ⟨_, h1, _⟩ => (by cases h1)⟩

end Bind

theorem map_eq_ok {f : α → β} {b : β} : x.map f = .ok b ↔ ∃ a, x = .ok a ∧ f a = b := by
  cases x <;> simp [Except.map]

/-- The rule of branching. -/
theorem Ends.ite {c : Prop} [Decidable c] {y : Except φ α} (h : c → Ends x E P)
    (h' : ¬ c → Ends y E P) : Ends (if c then x else y) E P := by
  by_cases hc : c
  · rw [if_pos hc]
    exact h hc
  · rw [if_neg hc]
    exact h' hc

end Rtx.Lib
