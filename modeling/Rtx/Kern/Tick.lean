/-
  File:      Rtx/Kern/Tick.lean
  Subject:   One timer interrupt, from any state in which the listed tasks are in line.

  The interrupt releases the suspended tasks whose next period has begun, and then the real-time
  task with the earliest deadline runs. No task loses its place, provided that the task that ran has
  one to go back to when it gives way (`tick_end_to_end`); without that it may (`tick_misplaces`).
-/
import Rtx.Kern.Drift
import Rtx.Kern.Lineup

namespace Rtx

open Lib

variable {k k' : Kernel} {L L' : Lines} {t : Tid}

/-- Where a task that can be scheduled is. -/
inductive Place where
  | running
  | queued (q : Option (Fin 5))
  deriving DecidableEq

/-- The task runs, or it is in the list of a queue. -/
def Kernel.At (k : Kernel) (L : Lines) (t : Tid) : Place → Prop
  | .running => t = k.current
  | .queued q => t ∈ L q

theorem exists_at : (∃ p, k.At L t p) ↔ t = k.current ∨ L.Has t := by
  constructor
  · rintro ⟨_ | q, hp⟩
    · exact Or.inl hp
    · exact Or.inr ⟨q, hp⟩
  · rintro (h | ⟨q, h⟩)
    · exact ⟨.running, h⟩
    · exact ⟨.queued q, h⟩

/-- A task has one place at most. -/
theorem at_unique (h : ∀ q, k.current ∉ L q) {X : Tid → Prop} (hl : Listed k L X) {p p' : Place}
    (hp : k.At L t p) (hp' : k.At L t p') : p = p' := by
  cases p with
  | running =>
      obtain rfl : t = k.current := hp
      cases p' with
      | running => rfl
      | queued q => exact absurd hp' (h q)
  | queued q =>
      cases p' with
      | running =>
          obtain rfl : t = k.current := hp'
          exact absurd hp (h q)
      | queued q' => exact congrArg Place.queued (hl.disj q q' t hp hp')

/-- A task whose next period begins after the tick count `now`. -/
def TcbData.Later (now : Nat) (d : TcbData) : Prop := now < sub32 d.tskDeadline d.tskPeriod

instance TcbData.Later.decidable (now : Nat) (d : TcbData) : Decidable (d.Later now) :=
  inferInstanceAs (Decidable (_ < _))

theorem due_iff (k : Kernel) (t : Tid) : k.due t = true ↔ ¬ (k.data t).Later k.timerCount := by
  unfold Kernel.due TcbData.Later
  rw [decide_eq_true_iff, not_lt]
  exact Iff.rfl

theorem not_due_eq (k : Kernel) (t : Tid) :
    (!k.due t) = decide ((k.data t).Later k.timerCount) := by
  rw [Bool.eq_iff_iff, Bool.not_eq_true', Bool.eq_false_iff, decide_eq_true_iff, Ne, due_iff,
    not_not]

/-- The real-time tasks that are ready once the tick count is `now`. -/
def Kernel.Waiting (k : Kernel) (L : Lines) (now : Nat) (t : Tid) : Prop :=
  t ∈ L (some 0) ∨ (t ∈ L none ∧ ¬ (k.data t).Later now)

instance Kernel.Waiting.decidable (k : Kernel) (L : Lines) (now : Nat) :
    DecidablePred (k.Waiting L now) := fun _ => inferInstanceAs (Decidable (_ ∨ _))

/-- **A tick of the timer, end to end**, in any state of the queues; the running task needs a place
    to go back to only if one of the real-time tasks that are ready then makes it give way. -/
theorem tick_end_to_end (h : Lined k L) (hso : Sorted k L) (hs : L none ≠ [])
    (hready : k.cur.realTime = true → ∃ i, L (some i) ≠ []) (tc pc : Nat)
    (hseat : k.Seated (k.Waiting L (Kernel.correctRound tc pc))) :
    ∃ k' L', k.timer0IrqHandler tc pc = .ok k' ∧ k'.timerCount = Kernel.correctRound tc pc ∧
      Listed k' L' k'.Loose ∧ (k'.data k'.current).state = .running ∧ Sorted k' L' ∧
      L' none = (L none).filter (fun t => (k.data t).Later (Kernel.correctRound tc pc)) ∧
      (∀ t, t ≠ tidNull → (∃ p, k.At L t p) → ∃! p, k'.At L' t p) ∧
      ∀ t, (k.data t).realTime = true →
        (t = k.current ∨ k.Waiting L (Kernel.correctRound tc pc) t) →
        (k'.data k'.current).realTime = true ∧
          (k'.data k'.current).tskDeadline ≤ (k'.data t).tskDeadline := by
  have hwait : ∀ t, (t ∈ L (some 0) ∨ (t ∈ L none ∧
      Kernel.due { k with timerCount := Kernel.correctRound tc pc } t = true)) ↔
      k.Waiting L (Kernel.correctRound tc pc) t := fun t =>
    or_congr_right (and_congr_right fun _ =>
      due_iff { k with timerCount := Kernel.correctRound tc pc } t)
  obtain ⟨k₁, L₁, k', L', h1, h2, h3⟩ := h.timer0IrqHandler hs tc pc
    (by simp only [hwait]; exact hseat) hready
  have hrt := h3.field TcbData.realTime fun _ _ _ => rfl
  have hdl := h3.field TcbData.tskDeadline fun _ _ _ => rfl
  refine ⟨k', L', h1, h3.timerCount.trans h2.timerCount, h3.listed, h3.running,
    h3.sorted (h2.sorted hso), ?_, fun t h0 hp => ?_, fun t ht hp => ?_⟩
  · rw [h3.suspended, h2.suspended]
    exact List.filter_congr fun u _ =>
      not_due_eq { k with timerCount := Kernel.correctRound tc pc } u
  · have hp' : ∃ p, k'.At L' t p := by
      rw [exists_at] at hp ⊢
      rw [h3.places t h0, h2.current, h2.has]
      exact hp
    obtain ⟨p, hp'⟩ := hp'
    exact ⟨p, hp', fun p'' hp'' => at_unique h3.held h3.listed hp'' hp'⟩
  · have hp' : t = k₁.current ∨ t ∈ L₁ (some 0) := by
      rw [h2.current, h2.released]
      exact hp.imp_right (hwait t).mpr
    rw [hrt, hdl, hdl]
    exact h3.earliest (h2.sorted hso) t ((h2.restated.realTime t).trans ht) hp'

/-- A task created with PRIO_RT runs, which is no real-time task, and one that is becomes due. -/
theorem tick_end_to_end_created :
    ∃ k, reached threeTasks [.call (.rtTskSet ⟨0, 2500⟩), .call .rtTskSusp,
        .call (.tskCreate 7 prioRt 0)] = some k ∧
      k.cur.prio = prioRt ∧ k.cur.realTime = false ∧
      ∃ k' L', k.timer0IrqHandler 0 300000 = .ok k' ∧ Sorted k' L' ∧ L' none = [] ∧
        (k'.data k'.current).tskDeadline ≤ (k'.data 14).tskDeadline := by
  obtain ⟨k, hk, hd⟩ := (Option.any_eq_true (fun k : Kernel => decide (Lined k k.lines ∧
    Sorted k k.lines ∧ k.lines none = [14] ∧ k.cur.prio = prioRt ∧ k.cur.realTime = false ∧
    k.Seated (k.Waiting k.lines (Kernel.correctRound 0 300000)) ∧ (k.data 14).realTime = true ∧
    ¬ (k.data 14).Later (Kernel.correctRound 0 300000)))
    (reached threeTasks [.call (.rtTskSet ⟨0, 2500⟩), .call .rtTskSusp,
      .call (.tskCreate 7 prioRt 0)])).mp (by decide +kernel)
  obtain ⟨h1, h2, h3, h4, h5, h6, h7, h8⟩ := of_decide_eq_true hd
  obtain ⟨k', L', h9, -, -, -, h10, h11, -, h12⟩ := tick_end_to_end h1 h2 (by simp [h3])
    (fun hr => by rw [h5] at hr; cases hr) 0 300000 h6
  refine ⟨k, hk, h4, h5, k', L', h9, h10, ?_,
    (h12 14 h7 (Or.inr (Or.inr ⟨by rw [h3]; simp, h8⟩))).2⟩
  rw [h11, h3]
  exact List.filter_eq_nil_iff.mpr fun u hu => by
    obtain rfl := List.mem_singleton.mp hu
    simpa using h8

/-- The lists before a tick, with a running task that is free of links. -/
def AtTick (k : Kernel) (L : Lines) : Prop :=
  Lined k L ∧ Sorted k L ∧ L none ≠ [] ∧ (k.cur.realTime = true → ∃ i, L (some i) ≠ []) ∧
    k.cur.next = none ∧ k.cur.prev = none

instance AtTick.decidable (k : Kernel) (L : Lines) : Decidable (AtTick k L) :=
  inferInstanceAs (Decidable (_ ∧ _))

/-- The running task with another priority and deadline. -/
def Kernel.alter (k : Kernel) (prio deadline : Nat) : Kernel :=
  k.modifyTcb k.current fun d => { d with prio := prio, tskDeadline := deadline }

/-- Two real-time tasks are suspended, and a task of another kind runs. -/
def twoSuspended : Option Kernel := reached threeTasks
  [.call (.rtTskSet ⟨0, 2500⟩), .call .rtTskSusp, .call (.rtTskSet ⟨0, 5000⟩), .call .rtTskSusp]

/-- A real-time task is suspended, and another one runs. -/
def oneSuspended : Option Kernel := reached threeTasks
  [.call (.rtTskSet ⟨0, 2500⟩), .call .rtTskSusp, .call (.rtTskSet ⟨0, 5000⟩)]

/-- The lists alone do not say enough of the running task. One with PRIO_RT that is no real-time
    task goes in front of an earlier deadline; one whose priority is that of no ready queue is put
    back outside them; a real-time task of another priority is put back nowhere. -/
theorem tick_misplaces :
    (∃ k k', twoSuspended.map (·.alter prioRt 1000) = some k ∧ AtTick k k.lines ∧
      k.timer0IrqHandler 0 900000 = .ok k' ∧ ∀ L' X, Listed k' L' X → ¬ Sorted k' L') ∧
    (∃ k, twoSuspended.map (·.alter 0x79 1000) = some k ∧ AtTick k k.lines ∧
      ∀ k', k.timer0IrqHandler 0 900000 ≠ .ok k') ∧
    ∃ k k', oneSuspended.map (·.alter lowest 1000) = some k ∧ AtTick k k.lines ∧
      k.timer0IrqHandler 0 900000 = .ok k' ∧
      ∀ L' X, Listed k' L' X → ¬ ∃ p, k'.At L' k.current p := by
  refine ⟨?_, ?_, ?_⟩
  · obtain ⟨k, hk, hd⟩ := (Option.any_eq_true (fun k : Kernel => decide (AtTick k k.lines ∧
      (k.timer0IrqHandler 0 900000).toOption.any fun k' : Kernel =>
        decide (¬ Sorted k' k'.lines))) (twoSuspended.map (·.alter prioRt 1000))).mp
          (by decide +kernel)
    obtain ⟨h1, h2⟩ := of_decide_eq_true hd
    obtain ⟨k', hk', h3⟩ := (Option.any_eq_true _ _).mp h2
    refine ⟨k, k', hk, h1, toOption_eq_some.mp hk', fun L' X hl => ?_⟩
    rw [← hl.lines_eq]
    exact of_decide_eq_true h3
  · obtain ⟨k, hk, hd⟩ := (Option.any_eq_true (fun k : Kernel => decide (AtTick k k.lines ∧
      (k.timer0IrqHandler 0 900000).toOption.isNone)) (twoSuspended.map (·.alter 0x79 1000))).mp
        (by decide +kernel)
    obtain ⟨h1, h2⟩ := of_decide_eq_true hd
    refine ⟨k, hk, h1, fun k' hk' => ?_⟩
    rw [hk'] at h2
    cases h2
  · obtain ⟨k, hk, hd⟩ := (Option.any_eq_true (fun k : Kernel => decide (AtTick k k.lines ∧
      (k.timer0IrqHandler 0 900000).toOption.any fun k' : Kernel =>
        decide (¬ (k.current = k'.current ∨ k'.lines.Has k.current))))
      (oneSuspended.map (·.alter lowest 1000))).mp (by decide +kernel)
    obtain ⟨h1, h2⟩ := of_decide_eq_true hd
    obtain ⟨k', hk', h3⟩ := (Option.any_eq_true _ _).mp h2
    refine ⟨k, k', hk, h1, toOption_eq_some.mp hk', fun L' X hl => ?_⟩
    rw [exists_at, ← hl.lines_eq]
    exact of_decide_eq_true h3

/-- A task is suspended, another runs, and some are ready. -/
def suspendedLines : Lines := fun q =>
  q.elim [14] fun i => if i = 1 then [13] else if i = 4 then [1, 2, 3] else []

end Rtx
