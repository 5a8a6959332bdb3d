/-
  File:      Rtx/Kern/Clock.lean
  Subject:   The tick count against the time of TIMER1.

  TIMER1 counts cycles of 10 ns; its counter TC holds the whole seconds and its prescale counter PC
  the cycles of the current one. `get_tick` reads TC first and PC later. If the second ends between
  the two reads, the tick count is one second short (`storedTick_eq`): it lies between the times of
  the reads exactly for the reads that are not `Torn`. Interrupts without torn reads store counts
  that never fall (`clock_monotone`).
-/
import Rtx.Kern.Scheduling
import Rtx.Kern.Steady

namespace Rtx

open Lib

variable {k k' : Kernel}

/-! ## 1. One reading -/

/-- The cycles of a second: the prescale register of TIMER1 is one below. -/
def second : Nat := 100000000

/-- The cycles of a tick of 500 us. -/
def tickCycles : Nat := 50000

/-- The count that the handler stores if `get_tick` reads TC at the time `t₁` and PC at `t₂`. -/
def storedTick (t₁ t₂ : Nat) : Nat := Kernel.correctRound (t₁ / second) (t₂ % second)

/-- PC is read in another second than TC, and not a whole second of ticks later. -/
def Torn (t₁ t₂ : Nat) : Prop :=
  t₁ / second ≠ t₂ / second ∧ t₂ / tickCycles ≠ t₁ / tickCycles + 2000

instance (t₁ t₂ : Nat) : Decidable (Torn t₁ t₂) := inferInstanceAs (Decidable (_ ∧ _))

/-- **The count is that of the second read, less one second if the second has ended in between.** -/
theorem storedTick_eq {t₁ t₂ : Nat} (hle : t₁ ≤ t₂) (hlt : t₂ < t₁ + second)
    (hfit : t₂ / tickCycles < 2 ^ 32) :
    storedTick t₁ t₂ + (if t₁ / second = t₂ / second then 0 else 2000) = t₂ / tickCycles := by
  have hsplit : t₂ / tickCycles = t₂ / second * 2000 + t₂ % second / tickCycles := by
    unfold second tickCycles
    omega
  have hsec : t₁ / second = t₂ / second ∨ t₁ / second + 1 = t₂ / second := by
    unfold second at hlt ⊢
    omega
  have hbound : t₁ / second * 2000 + t₂ % second / tickCycles < 2 ^ 32 := by
    refine lt_of_le_of_lt ?_ hfit
    rw [hsplit]
    exact Nat.add_le_add_right (Nat.mul_le_mul_right _ (Nat.div_le_div_right hle)) _
  have hst : storedTick t₁ t₂ = t₁ / second * 2000 + t₂ % second / tickCycles :=
    Nat.mod_eq_of_lt hbound
  rw [hst, hsplit]
  rcases hsec with h | h
  · rw [if_pos h, h, Nat.add_zero]
  · rw [if_neg (by omega), ← h]
    omega

/-- **The count lies between the times of the two reads exactly if they are not torn.** -/
theorem storedTick_between {t₁ t₂ : Nat} (hle : t₁ ≤ t₂) (hlt : t₂ < t₁ + second)
    (hfit : t₂ / tickCycles < 2 ^ 32) :
    (t₁ / tickCycles ≤ storedTick t₁ t₂ ∧ storedTick t₁ t₂ ≤ t₂ / tickCycles) ↔ ¬ Torn t₁ t₂ := by
  have h := storedTick_eq hle hlt hfit
  have hmono : t₁ / tickCycles ≤ t₂ / tickCycles := Nat.div_le_div_right hle
  -- less than a second of cycles is at most a second of ticks
  have hspan : t₂ / tickCycles ≤ t₁ / tickCycles + 2000 := by
    unfold second at hlt
    unfold tickCycles
    omega
  unfold Torn
  split at h
  next he =>
    rw [← h, Nat.add_zero]
    rw [Nat.add_zero] at h
    exact iff_of_true ⟨h ▸ hmono, le_rfl⟩ fun ht => ht.1 he
  next hne =>
    constructor
    · rintro ⟨h1, -⟩ ⟨-, h2⟩
      exact h2 (by omega)
    · intro ht
      have : t₂ / tickCycles = t₁ / tickCycles + 2000 := not_not.mp fun h2 => ht ⟨hne, h2⟩
      omega

/-! ## 2. The readings of a run -/

/-- An interrupt that reads TC at `t₁` and PC at `t₂`, or any other event. -/
inductive Clocked where
  | tick (t₁ t₂ : Nat)
  | other (e : Event)

namespace Clocked

/-- The state and the time of the last read. -/
def step (s : Kernel × Nat) : Clocked → Option (Kernel × Nat)
  | tick t₁ t₂ => (s.1.step (.timer (t₁ / second) (t₂ % second))).map fun k => (k, t₂)
  | other e => (s.1.step e).map fun k => (k, s.2)

instance instDecidableTimer (e : Event) : Decidable (∀ tc pc, e ≠ .timer tc pc) :=
  match e with
  | .timer tc pc => .isFalse fun h => h tc pc rfl
  | .call _ | .resume | .overwrite .. => .isTrue fun _ _ h => by cases h

/-- Time goes on, the reads of an interrupt are not torn, and there are no other interrupts. -/
def Sound (s : Kernel × Nat) : Clocked → Prop
  | tick t₁ t₂ => s.2 ≤ t₁ ∧ t₁ ≤ t₂ ∧ t₂ < t₁ + second ∧ t₂ / tickCycles < 2 ^ 32 ∧ ¬ Torn t₁ t₂
  | other e => ∀ tc pc, e ≠ .timer tc pc

instance (s : Kernel × Nat) (c : Clocked) : Decidable (Sound s c) := by
  cases c <;> unfold Sound <;> infer_instance

end Clocked

/-- The tick count is not ahead of the time. -/
def Behind (s : Kernel × Nat) : Prop := s.1.timerCount ≤ s.2 / tickCycles

theorem step_timerCount {e : Event} (hs : k.step e = some k') : k'.timerCount = k.countAfter e := by
  obtain ⟨r, hx⟩ := Kernel.step_eq_some.mp hs
  exact ((exec_writes k e).of_ok hx).2

/-- What a sound interrupt stores. -/
theorem tick_stores {s s' : Kernel × Nat} {t₁ t₂ : Nat} (h : Clocked.Sound s (.tick t₁ t₂))
    (hs : Clocked.step s (.tick t₁ t₂) = some s') :
    s'.2 = t₂ ∧ t₁ / tickCycles ≤ s'.1.timerCount ∧ s'.1.timerCount ≤ t₂ / tickCycles := by
  obtain ⟨-, h1, h2, h3, h4⟩ := h
  obtain ⟨k₁, hk, rfl⟩ := Option.map_eq_some_iff.mp hs
  have hc : k₁.timerCount = storedTick t₁ t₂ := step_timerCount hk
  rw [hc]
  exact ⟨rfl, (storedTick_between h1 h2 h3).mpr h4⟩

/-- The step lemma. -/
theorem Behind.step {s s' : Kernel × Nat} {c : Clocked} (h : Behind s) (hc : Clocked.Sound s c)
    (hs : Clocked.step s c = some s') : Behind s' := by
  cases c with
  | tick t₁ t₂ =>
      obtain ⟨h1, -, h2⟩ := tick_stores hc hs
      unfold Behind
      rw [h1]
      exact h2
  | other e =>
      obtain ⟨k₁, hk, rfl⟩ := Option.map_eq_some_iff.mp hs
      have hcount := step_timerCount hk
      unfold Behind
      rw [hcount]
      cases e with
      | timer tc pc => exact absurd rfl (hc tc pc)
      | _ => exact h

/-- **The clock never runs backwards** where no reads are torn: the count lies between the times of
    the two reads if and only if they are not torn, and in every run of interrupts whose reads are
    not torn, and of any other events, none stores a smaller count than the one before. -/
theorem clock_monotone (t₁ t₂ : Nat) :
    (t₁ ≤ t₂ → t₂ < t₁ + second → t₂ / tickCycles < 2 ^ 32 →
      ((t₁ / tickCycles ≤ storedTick t₁ t₂ ∧ storedTick t₁ t₂ ≤ t₂ / tickCycles) ↔ ¬ Torn t₁ t₂)) ∧
    ∀ (k : Kernel) (now u₁ u₂ : Nat) (cs : List Clocked) (s s' : Kernel × Nat),
      Allowed Clocked.step Clocked.Sound (k, now) (.tick t₁ t₂ :: cs ++ [.tick u₁ u₂]) →
      run Clocked.step (k, now) (.tick t₁ t₂ :: cs) = some s →
      Clocked.step s (.tick u₁ u₂) = some s' → s.1.timerCount ≤ s'.1.timerCount := by
  refine ⟨fun hle hlt hfit => storedTick_between hle hlt hfit,
    fun k now u₁ u₂ cs s s' h hr hs => ?_⟩
  have hlast : Clocked.Sound s (.tick u₁ u₂) := h.last hr
  rw [List.cons_append, allowed_cons] at h
  rw [run_cons] at hr
  obtain ⟨s₁, hs₁, hr⟩ := Option.bind_eq_some_iff.mp hr
  obtain ⟨h1, -, h2⟩ := tick_stores h.1 hs₁
  -- the first interrupt already leaves the count behind the time
  have hfirst : Behind s₁ := by
    unfold Behind
    rw [h1]
    exact h2
  have hrun : Behind s := run_reached Behind (fun _ _ _ hb hc hst => hb.step hc hst) hfirst
    (h.2 s₁ hs₁).left hr
  obtain ⟨-, h3, -⟩ := tick_stores hlast hs
  exact (hrun.trans (Nat.div_le_div_right hlast.1)).trans h3

theorem clock_monotone_ticks :
    ((50000 / tickCycles ≤ storedTick 50000 50010 ∧
      storedTick 50000 50010 ≤ 50010 / tickCycles) ↔ ¬ Torn 50000 50010) ∧
    ∃ k s s', reached threeTasks [.call (.rtTskSet ⟨0, 2500⟩), .call .rtTskSusp] = some k ∧
      Clocked.step (k, 0) (.tick 50000 50010) = some s ∧
      Clocked.step s (.tick 100000 100010) = some s' ∧ s.1.timerCount ≤ s'.1.timerCount := by
  refine ⟨(clock_monotone 50000 50010).1 (by decide) (by decide) (by decide), ?_⟩
  obtain ⟨k, hk, hd⟩ := (Option.any_eq_true (fun k : Kernel => decide (Allowed Clocked.step
    Clocked.Sound (k, 0) [.tick 50000 50010, .tick 100000 100010] ∧
    (run Clocked.step (k, 0) [.tick 50000 50010]).any
      fun s => (Clocked.step s (.tick 100000 100010)).isSome))
    (reached threeTasks [.call (.rtTskSet ⟨0, 2500⟩), .call .rtTskSusp])).mp (by decide +kernel)
  obtain ⟨hall, hs⟩ := of_decide_eq_true hd
  obtain ⟨s, hs, hs'⟩ := (Option.any_eq_true _ _).mp hs
  obtain ⟨s', hs'⟩ := Option.isSome_iff_exists.mp hs'
  have hstep : Clocked.step (k, 0) (.tick 50000 50010) = some s := by
    rw [run_cons] at hs
    obtain ⟨s₁, h1, h2⟩ := Option.bind_eq_some_iff.mp hs
    rw [h1, ← Option.some.inj h2]
  exact ⟨k, s, s', hk, hstep, hs', (clock_monotone 50000 50010).2 k 0 _ _ [] s s' hall hs hs'⟩

/-- **A torn reading**: TC is read in the last cycle of a second and PC in the first of the next. -/
theorem clock_backwards : ¬ ∀ t₁ t₂ : Nat, t₁ ≤ t₂ → t₂ < t₁ + second →
    t₂ / tickCycles < 2 ^ 32 →
    t₁ / tickCycles ≤ storedTick t₁ t₂ ∧ storedTick t₁ t₂ ≤ t₂ / tickCycles := by
  intro h
  have := h 99999999 100000000 (by decide) (by decide) (by decide)
  exact absurd this (by decide)

end Rtx
