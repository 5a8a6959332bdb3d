/-
  File:      Rtx/Lib/Process.lean
  Subject:   Processes: programs that make requests and go on with the answers.

  A `Proc` is a tree: it returns, fails, or makes a request and has a continuation for every
  answer. `play env p past` is its run in an environment that answers each request from all that
  was exchanged before: the exchanges and the outcome.

  `Sat A p E P` says of every run whose exchanges satisfy `A` that its exchanges and value satisfy
  `P`, or that its exchanges and error satisfy `E`. Its rules follow the structure of the process;
  `Sat.play` carries it to a run.
-/
import Rtx.Lib.Outcome

namespace Rtx.Lib

/-- A request and its answer. -/
structure Exchange {ρ : Type} (ans : ρ → Type) where
  req : ρ
  answer : ans req

/-- Who answers: from the exchanges so far and the request. -/
abbrev Env {ρ : Type} (ans : ρ → Type) := List (Exchange ans) → (r : ρ) → ans r

/-- A process that makes requests in `ρ`, fails in `φ` or returns in `α`. -/
inductive Proc {ρ : Type} (ans : ρ → Type) (φ α : Type) where
  | ret (a : α)
  | fail (e : φ)
  | ask (r : ρ) (next : ans r → Proc ans φ α)

namespace Proc

variable {ρ : Type} {ans : ρ → Type} {φ α β : Type}

/-! ## 1. Composition and runs -/

/-- Run `p`, and go on with its value. -/
def bind : Proc ans φ α → (α → Proc ans φ β) → Proc ans φ β
  | ret a, f => f a
  | fail e, _ => fail e
  | ask r next, f => ask r fun x => bind (next x) f

instance : Monad (Proc ans φ) where
  pure := ret
  bind := bind

/-- Make a request, and return the answer. -/
def call (r : ρ) : Proc ans φ (ans r) := ask r ret

/-- The run of a process behind the exchanges `past`: its own exchanges, and how it ends. -/
def play (env : Env ans) : Proc ans φ α → List (Exchange ans) →
    List (Exchange ans) × Except φ α
  | ret a, _ => ([], .ok a)
  | fail e, _ => ([], .error e)
  | ask r next, past =>
      let x : Exchange ans := ⟨r, env past r⟩
      let (tr, out) := play env (next x.answer) (past ++ [x])
      (x :: tr, out)

variable {env : Env ans} {p : Proc ans φ α} {f : α → Proc ans φ β} {past : List (Exchange ans)}
  {a : α} {e : φ} {r : ρ}

@[simp] theorem pure_bind (a : α) (f : α → Proc ans φ β) : (pure a >>= f) = f a := rfl

@[simp] theorem ret_bind (a : α) (f : α → Proc ans φ β) : (ret a >>= f) = f a := rfl

@[simp] theorem ask_bind (next : ans r → Proc ans φ α) (f : α → Proc ans φ β) :
    (ask r next >>= f) = ask r fun x => next x >>= f := rfl

@[simp] theorem call_bind (r : ρ) (f : ans r → Proc ans φ β) : (call r >>= f) = ask r f := rfl

theorem play_ask {next : ans r → Proc ans φ α} : play env (ask r next) past =
    (⟨r, env past r⟩ :: (play env (next (env past r)) (past ++ [⟨r, env past r⟩])).1,
      (play env (next (env past r)) (past ++ [⟨r, env past r⟩])).2) := rfl

/-! ## 2. Specifications -/

/-- Every run whose exchanges satisfy `A` returns with `P` or fails with `E`. -/
def Sat (A : Exchange ans → Prop) : Proc ans φ α → (List (Exchange ans) → φ → Prop) →
    (List (Exchange ans) → α → Prop) → Prop
  | ret a, _, P => P [] a
  | fail e, E, _ => E [] e
  | ask r next, E, P => ∀ x, A ⟨r, x⟩ → Sat A (next x) (fun tr => E (⟨r, x⟩ :: tr))
      fun tr => P (⟨r, x⟩ :: tr)

variable {A : Exchange ans → Prop} {E E' : List (Exchange ans) → φ → Prop}
  {P P' : List (Exchange ans) → α → Prop} {Q : List (Exchange ans) → β → Prop}

@[simp] theorem sat_ret : Sat A (ret a) E P ↔ P [] a := Iff.rfl

@[simp] theorem sat_pure : Sat A (pure a : Proc ans φ α) E P ↔ P [] a := Iff.rfl

@[simp] theorem sat_fail : Sat A (fail e : Proc ans φ α) E P ↔ E [] e := Iff.rfl

theorem sat_call {f : ans r → Proc ans φ α} : Sat A (call r >>= f) E P ↔
    ∀ x, A ⟨r, x⟩ → Sat A (f x) (fun tr => E (⟨r, x⟩ :: tr)) fun tr => P (⟨r, x⟩ :: tr) :=
  Iff.rfl

theorem Sat.mono (h : Sat A p E P) (hE : ∀ tr e, E tr e → E' tr e)
    (hP : ∀ tr a, P tr a → P' tr a) : Sat A p E' P' := by
  induction p generalizing E E' P P' with
  | ret a => exact hP [] a h
  | fail e => exact hE [] e h
  | ask r next ih => exact fun x hx => ih x (h x hx) (fun _ => hE _) fun _ => hP _

theorem Sat.imp (h : Sat A p E P) (hP : ∀ tr a, P tr a → P' tr a) : Sat A p E P' :=
  h.mono (fun _ _ => id) hP

/-- A composition: the second part starts where the first returns. -/
theorem sat_bind : Sat A (p >>= f) E Q ↔
    Sat A p E fun tr a => Sat A (f a) (fun tr' => E (tr ++ tr')) fun tr' => Q (tr ++ tr') := by
  induction p generalizing E Q with
  | ret a => exact Iff.rfl
  | fail e => exact Iff.rfl
  | ask r next ih => exact forall_congr' fun x => imp_congr_right fun _ => ih x

theorem Sat.bind (h : Sat A p E P)
    (hf : ∀ tr a, P tr a → Sat A (f a) (fun tr' => E (tr ++ tr')) fun tr' => Q (tr ++ tr')) :
    Sat A (p >>= f) E Q :=
  sat_bind.mpr (h.imp hf)

/-- **A specification holds of a run.** -/
theorem Sat.play (h : Sat A p E P) (env : Env ans) (past : List (Exchange ans))
    (hA : ∀ x ∈ (play env p past).1, A x) :
    Ends (play env p past).2 (E (play env p past).1) (P (play env p past).1) := by
  induction p generalizing E P past with
  | ret a => exact h
  | fail e => exact h
  | ask r next ih =>
      rw [play_ask] at hA ⊢
      exact ih _ (h _ (hA _ List.mem_cons_self)) _ fun x hx => hA x (List.mem_cons_of_mem _ hx)

/-- A process that never fails returns. -/
theorem Sat.returns (h : Sat A p (fun _ _ => False) P) (env : Env ans) (past : List (Exchange ans))
    (hA : ∀ x ∈ (Proc.play env p past).1, A x) :
    ∃ a, (Proc.play env p past).2 = .ok a ∧ P (Proc.play env p past).1 a := by
  have hp := h.play env past hA
  cases hout : (Proc.play env p past).2 with
  | ok a => exact ⟨a, rfl, hp.of_ok hout⟩
  | error e => exact (hp.of_error hout).elim

/-- What holds of the exchanges however the run ends. -/
theorem Sat.holds {T : List (Exchange ans) → Prop} (h : Sat A p (fun tr _ => T tr) fun tr _ => T tr)
    (env : Env ans) (past : List (Exchange ans)) (hA : ∀ x ∈ (Proc.play env p past).1, A x) :
    T (Proc.play env p past).1 := by
  have hp := h.play env past hA
  cases hout : (Proc.play env p past).2 with
  | ok a => exact hp.of_ok hout
  | error e => exact hp.of_error hout

end Proc

end Rtx.Lib
