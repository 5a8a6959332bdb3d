/-
  File:      Rtx/Kern/Period.lean
  Subject:   The periods of the real-time tasks.

  `k_rt_tsk_set` refuses a period that is zero and no multiple of 2500 us, which no number is, so
  it refuses none: it does what it should exactly for the periods it should take
  (`checksPeriod_iff`). In the runs whose tasks ask for no other periods, every real-time task has
  one of at least MIN_PERIOD ticks. `k_rt_tsk_get` takes a remainder for the seconds, and gives a
  task the period back that it has set if its seconds are as many as its microseconds
  (`period_given_back`).
-/
import Rtx.Kern.Scheduling
import Rtx.Kern.Steady
import Rtx.Kern.View

namespace Rtx

open Lib

variable {k k' k₁ k₂ : Kernel} {t : Tid} {es : List Event} {tv : Timeval}

/-- `RTX_TICK_SIZE`: the microseconds of a tick. -/
def rtxTickSize : Nat := 500

/-- `MIN_PERIOD`. -/
def minPeriod : Nat := 5

/-! ## 1. What `k_rt_tsk_set` accepts -/

/-- The microseconds of a `TIMEVAL`. -/
def Timeval.total (tv : Timeval) : Nat := tv.sec * 1000000 + tv.usec

/-- A period that a task may have: a positive multiple of the shortest one, of 32 bits. -/
def Timeval.Periodic (tv : Timeval) : Prop :=
  0 < tv.total ∧ rtxTickSize * minPeriod ∣ tv.total ∧ tv.total < 2 ^ 32

instance (tv : Timeval) : Decidable tv.Periodic := inferInstanceAs (Decidable (_ ∧ _ ∧ _))

/-- **Period validation**: `k_rt_tsk_set` succeeds with a period that a task may have, and refuses
    any other with EINVAL, the caller's TCB and the queues as they were. -/
def Kernel.ChecksPeriod (k : Kernel) (tv : Timeval) : Prop :=
  (tv.Periodic → ∃ k', k.kRtTskSet tv = .ok (k', rtxOk)) ∧
    (¬ tv.Periodic → ∃ k', k.kRtTskSet tv = .ok (k', rtxErr) ∧ k'.errno = .EINVAL ∧
      k'.tcb k.current = k.tcb k.current ∧ k'.queue = k.queue)

/-- `k_rt_tsk_set` of another task than a real-time task never refuses. -/
theorem kRtTskSet_never_err (hrt : k.cur.realTime = false) (h : k.kRtTskSet tv = .ok (k', rtxErr)) :
    False := by
  obtain ⟨h1, -⟩ | ⟨-, h2, -⟩ := (kRtTskSet_steady k tv).of_ok h
  · rw [hrt] at h1
    cases h1
  · exact absurd h2 rtxErr_ne_rtxOk

/-- It returns if the caller can be queued: the ready queue of the real-time tasks is a list that
    the caller is not in. -/
theorem kRtTskSet_returns {l : List Tid} (hq : k.toTasks.Chain (.ready 0) l) (hc : k.current ∉ l)
    (hrt : k.cur.realTime = false) : ∃ k', k.kRtTskSet tv = .ok (k', rtxOk) := by
  obtain ⟨s, z, hs, -⟩ := (hq.modify k.current (TcbData.makeRealTime k.timerCount
    tv.period)).pushTail card_tid hc fun _ => by
      rw [Tasks.modify_data, Function.update_self]
      rfl
  have h1 : Ends (k.kRtTskSet tv) (fun _ => False) fun r => r.2 = rtxOk := by
    unfold Kernel.kRtTskSet
    refine Ends.ite (fun e => ?_) fun _ => Ends.ite (fun e => ?_) fun _ => ?_
    · rw [hrt] at e
      cases e
    · exact absurd (e.1 ▸ Nat.zero_mod 2500) e.2
    exact Ends.bind_ok (a := .ready 0) rfl (Ends.bind_ok (bind_of_ok hs) rfl)
  cases hk : k.kRtTskSet tv with
  | error e => exact (h1.of_error hk).elim
  | ok r => exact ⟨r.1, by rw [← h1.of_ok hk]⟩

/-- **`k_rt_tsk_set` checks the periods that a task may have**, and no others. -/
theorem checksPeriod_iff {l : List Tid} (hq : k.toTasks.Chain (.ready 0) l) (hc : k.current ∉ l)
    (hrt : k.cur.realTime = false) : k.ChecksPeriod tv ↔ tv.Periodic := by
  refine ⟨fun h => not_not.mp fun hn => ?_, fun h => ⟨fun _ => kRtTskSet_returns hq hc hrt,
    fun hn => absurd h hn⟩⟩
  obtain ⟨k', hk, -⟩ := h.2 hn
  exact kRtTskSet_never_err hrt hk

/-! ## 2. The periods of the tasks -/

/-- No event asks for another period. -/
def Event.Periodic : Event → Prop
  | .call (.rtTskSet tv) => tv.Periodic
  | _ => True

instance (e : Event) : Decidable e.Periodic :=
  match e with
  | .call (.rtTskSet tv) => inferInstanceAs (Decidable tv.Periodic)
  | .call (.memAlloc _) | .call (.memDealloc _) | .call (.tskCreate ..) | .call .tskExit
  | .call .tskYield | .call (.tskSetPrio ..) | .call (.tskGet ..) | .call .tskGettid
  | .call (.tskLs ..) | .call (.mbxCreate _) | .call (.mbxSend ..) | .call (.mbxSendNb ..)
  | .call (.mbxRecv ..) | .call (.mbxRecvNb ..) | .call (.mbxLs ..) | .call (.mbxGet _)
  | .call .rtTskSusp | .call (.rtTskGet ..) | .resume | .timer .. | .overwrite .. => .isTrue trivial

/-- Every real-time task has a period, of at least MIN_PERIOD ticks. -/
def Paced (k : Kernel) : Prop :=
  ∀ t, (k.data t).realTime = true → minPeriod ≤ (k.data t).tskPeriod

/-- `k_rt_tsk_susp` divides by zero: its caller is late and has no period. -/
def Kernel.DividesByZero (k : Kernel) : Prop :=
  k.cur.realTime = true ∧ k.cur.tskDeadline < k.timerCount ∧ k.cur.tskPeriod = 0

theorem Paced.divides (h : Paced k) : ¬ k.DividesByZero := by
  rintro ⟨h1, -, h2⟩
  have h3 : minPeriod ≤ k.cur.tskPeriod := h k.current h1
  rw [h2] at h3
  exact absurd h3 (by decide)

/-- A period that a task may have is taken for what it is. -/
theorem Timeval.Periodic.period (h : tv.Periodic) : tv.period * rtxTickSize = tv.total := by
  obtain ⟨-, ⟨c, hc⟩, h3⟩ := h
  change tv.total % 2 ^ 32 / 500 * rtxTickSize = tv.total
  rw [Nat.mod_eq_of_lt h3]
  have hd : rtxTickSize ∣ tv.total := ⟨minPeriod * c, by rw [hc, Nat.mul_assoc]⟩
  exact Nat.div_mul_cancel hd

theorem Timeval.Periodic.le_period (h : tv.Periodic) : minPeriod ≤ tv.period := by
  have hle := Nat.le_of_dvd h.1 h.2.1
  rw [← h.period, Nat.mul_comm] at hle
  exact Nat.le_of_mul_le_mul_right hle (by decide)

/-- The step lemma, one case for each way a TCB is written. -/
theorem Paced.step {e : Event} (h : Paced k) (he : e.Periodic) (hs : k.step e = some k') :
    Paced k' := by
  intro t hrt
  obtain ⟨r, hx⟩ := Kernel.step_eq_some.mp hs
  have hw := ((exec_writes k e).of_ok hx).1 t
  have hkeep : ∀ {d : TcbData}, d.Follows (k'.data t) → d.realTime = (k.data t).realTime →
      d.tskPeriod = (k.data t).tskPeriod → minPeriod ≤ (k'.data t).tskPeriod := by
    intro d hf h1 h2
    rw [hf.field TcbData.tskPeriod fun _ => rfl, h2]
    exact h t (h1 ▸ (hf.field TcbData.realTime fun _ => rfl) ▸ hrt)
  cases hw with
  | same hf => exact hkeep hf rfl rfl
  | noMemory _ hf => exact hkeep hf rfl rfl
  | create _ _ _ hf =>
      -- a new task is no real-time task
      have := (hf.field TcbData.realTime fun _ => rfl).symm.trans hrt
      cases this
  | makeRealTime _ _ hf =>
      rw [hf.field TcbData.tskPeriod fun _ => rfl]
      exact Timeval.Periodic.le_period he
  | postpone _ _ hf => exact hkeep hf rfl rfl
  | count hf => exact hkeep hf rfl rfl

theorem Paced.run (hb : Booted k) (h : Allowed Kernel.step (fun _ e => e.Periodic) k es)
    (hr : run Kernel.step k es = some k') : Paced k' := by
  obtain ⟨L, hL⟩ := hb.initial
  refine run_reached Paced (fun _ _ _ => Paced.step) (fun t ht => ?_) h hr
  have := (hL.noRt t).symm.trans ht
  cases this

/-- **Period validation**, in any state and in whole runs: a call is checked if and only if its
    period is one that a task may have, and where no others are asked for, every real-time task
    has a period of at least MIN_PERIOD ticks and no call divides by zero. -/
theorem period_validation (k : Kernel) :
    (∀ (l : List Tid) (tv : Timeval), k.toTasks.Chain (.ready 0) l → k.current ∉ l →
      k.cur.realTime = false → (k.ChecksPeriod tv ↔ tv.Periodic)) ∧
    ∀ (k' : Kernel) (es : List Event), Booted k →
      Allowed Kernel.step (fun _ e => e.Periodic) k es → run Kernel.step k es = some k' →
      Paced k' ∧ ¬ k'.DividesByZero :=
  ⟨fun _ _ hq hc hrt => checksPeriod_iff hq hc hrt, fun _ _ hb h hr =>
    ⟨Paced.run hb h hr, (Paced.run hb h hr).divides⟩⟩

/-- A task of the system becomes a real-time task of the shortest period, and suspends itself. -/
def shortestPeriod : List Event := [.call (.rtTskSet ⟨0, 2500⟩), .call .rtTskSusp]

theorem booted_ready : (bootKernel threeTasks).toTasks.Chain (.ready 0) [] :=
  ⟨by decide +kernel, by decide +kernel, by decide +kernel, linked_nil, List.nodup_nil⟩

theorem period_validation_shortest :
    ((bootKernel threeTasks).ChecksPeriod ⟨0, 2500⟩ ↔ Timeval.Periodic ⟨0, 2500⟩) ∧
      ∃ k', reached threeTasks shortestPeriod = some k' ∧ Paced k' ∧ ¬ k'.DividesByZero :=
  have hr : (reached threeTasks shortestPeriod).isSome = true := by decide +kernel
  ⟨(period_validation _).1 [] _ booted_ready List.not_mem_nil (by decide +kernel),
    _, (Option.some_get hr).symm, (period_validation _).2 _ shortestPeriod booted_threeTasks
      (by decide +kernel) (Option.some_get hr).symm⟩

/-- **The period zero is taken.** -/
theorem zero_period_taken : ¬ ∀ (k k' : Kernel) (es : List Event) (tv : Timeval), Booted k →
    Allowed Kernel.step Kernel.Legal k es → run Kernel.step k es = some k' →
    k'.cur.realTime = false → k'.ChecksPeriod tv := by
  intro h
  have hc := h _ _ [] ⟨0, 0⟩ booted_threeTasks trivial rfl (by decide +kernel)
  obtain ⟨k', hk, -⟩ := hc.2 (by decide)
  exact kRtTskSet_never_err (by decide +kernel) hk

/-! ## 3. The period that comes back -/

/-- The task is a real-time task of the period `p`. -/
def HasPeriod (t : Tid) (p : Nat) (k : Kernel) : Prop :=
  (k.data t).realTime = true ∧ (k.data t).state ≠ .dormant ∧ (k.data t).tskPeriod = p

/-- No event takes the period of a task away. -/
theorem HasPeriod.step {p : Nat} {e : Event} (h : HasPeriod t p k) (hs : k.step e = some k') :
    HasPeriod t p k' := by
  obtain ⟨r, hx⟩ := Kernel.step_eq_some.mp hs
  obtain ⟨⟨h1, h2, h3⟩, -⟩ := (((exec_writes k e).of_ok hx).1 t).realTime h.1 h.2.1
  exact ⟨h1, h2, h3.trans h.2.2⟩

/-- The caller of a successful `k_rt_tsk_set`. -/
theorem kRtTskSet_hasPeriod (h : k.kRtTskSet tv = .ok (k₁, rtxOk)) :
    HasPeriod k.current tv.period k₁ := by
  obtain ⟨-, h1⟩ | ⟨-, -, h1⟩ := (kRtTskSet_steady k tv).of_ok h
  · exact absurd (congrArg Prod.snd h1).symm rtxErr_ne_rtxOk
  obtain ⟨-, hf⟩ | ⟨hne, -⟩ := h1.follows_update (k.data_modifyTcb _ _) k.current
  · exact ⟨hf.field TcbData.realTime fun _ => rfl, hf.2 (by simp [TcbData.makeRealTime]),
      hf.field TcbData.tskPeriod fun _ => rfl⟩
  · exact absurd rfl hne

/-- What `k_rt_tsk_get` makes of a period. -/
def reported (period : Nat) : Timeval :=
  let tskSec := period * 500 % 2 ^ 32 % 1000000
  ⟨tskSec, sub32 (period * 500 % 2 ^ 32) (tskSec * 1000000 % 2 ^ 32)⟩

theorem kRtTskGet_reported {p : Nat} (h : HasPeriod t p k) (hc : k.cur.realTime = true) :
    k.kRtTskGet t.val true = .ok (k, rtxOk, some (reported p)) := by
  have ht : tcbAt t.val = .ok t := by
    unfold tcbAt
    rw [dif_pos t.isLt]
  have hrt : (k.tcb t).realTime = true := h.1
  have hp : (k.tcb t).tskPeriod = p := h.2.2
  unfold Kernel.kRtTskGet
  rw [if_neg (by simp)]
  refine (bind_of_ok ht).trans ?_
  simp only
  rw [if_neg (by simp [hrt]), if_neg (by simp [hc]), hp]
  rfl

/-- **The remainder is the number of seconds exactly when the seconds are as many as the
    microseconds.** -/
theorem reported_eq_iff (hp : tv.Periodic) (hn : tv.usec < 1000000) :
    reported tv.period = tv ↔ tv.sec = tv.usec := by
  have htot : tv.period * 500 % 2 ^ 32 = tv.total := by
    rw [show tv.period * 500 = tv.total from hp.period, Nat.mod_eq_of_lt hp.2.2]
  have hsec : tv.total % 1000000 = tv.usec := by
    rw [Timeval.total, Nat.mul_comm, Nat.mul_add_mod, Nat.mod_eq_of_lt hn]
  have hrep : reported tv.period =
      ⟨tv.usec, sub32 tv.total (tv.usec * 1000000 % 2 ^ 32)⟩ := by
    unfold reported
    rw [htot, hsec]
  rw [hrep]
  constructor
  · intro h
    exact (congrArg Timeval.sec h).symm
  · intro h
    have hle : tv.usec * 1000000 ≤ tv.total := by
      unfold Timeval.total
      omega
    have hlt := hp.2.2
    rw [Nat.mod_eq_of_lt (by omega), sub32_eq hle hlt]
    obtain ⟨sec, usec⟩ := tv
    obtain rfl : sec = usec := h
    rw [Timeval.total, Nat.add_sub_cancel_left]

/-- **The period that comes back**: a task that asks for the period it, or another, has set gets
    the same seconds and microseconds if and only if they are as many. -/
theorem period_given_back (hset : k.kRtTskSet tv = .ok (k₁, rtxOk))
    (hr : run Kernel.step k₁ es = some k₂) (hc : k₂.cur.realTime = true) (hp : tv.Periodic)
    (hn : tv.usec < 1000000) :
    k₂.kRtTskGet k.current.val true = .ok (k₂, rtxOk, some tv) ↔ tv.sec = tv.usec := by
  have h2 : HasPeriod k.current tv.period k₂ := run_keeps (HasPeriod k.current tv.period)
    (fun _ _ _ h hs => h.step hs) (kRtTskSet_hasPeriod hset) hr
  rw [kRtTskGet_reported h2 hc, ← reported_eq_iff hp hn]
  simp

/-- A task sets its period and still runs. -/
theorem set_period (tv : Timeval) (h : ((bootKernel threeTasks).kRtTskSet tv).toOption.any
    (fun r => r.2 = rtxOk ∧ r.1.cur.realTime = true) = true) :
    ∃ k₁, (bootKernel threeTasks).kRtTskSet tv = .ok (k₁, rtxOk) ∧ k₁.cur.realTime = true := by
  obtain ⟨r, hr, hd⟩ := (Option.any_eq_true _ _).mp h
  obtain ⟨h1, h2⟩ := of_decide_eq_true hd
  exact ⟨r.1, by rw [← h1]; exact toOption_eq_some.mp hr, h2⟩

theorem period_given_back_2500 : ∃ k₁,
    (bootKernel threeTasks).kRtTskSet ⟨2500, 2500⟩ = .ok (k₁, rtxOk) ∧
    (k₁.kRtTskGet (bootKernel threeTasks).current.val true = .ok (k₁, rtxOk, some ⟨2500, 2500⟩) ↔
      2500 = 2500) := by
  obtain ⟨k₁, h1, h2⟩ := set_period ⟨2500, 2500⟩ (by decide +kernel)
  have hr : run Kernel.step k₁ [] = some k₁ := rfl
  exact ⟨k₁, h1, period_given_back h1 hr h2 (by decide) (by decide)⟩

/-- **The shortest period comes back as 2500 seconds.** -/
theorem period_lost : ¬ ∀ (k k₁ k₂ : Kernel) (es : List Event) (tv : Timeval),
    k.kRtTskSet tv = .ok (k₁, rtxOk) → run Kernel.step k₁ es = some k₂ → k₂.cur.realTime = true →
    tv.Periodic → tv.usec < 1000000 →
    k₂.kRtTskGet k.current.val true = .ok (k₂, rtxOk, some tv) := by
  intro h
  obtain ⟨k₁, h1, h2⟩ := set_period ⟨0, 2500⟩ (by decide +kernel)
  have hget := h _ k₁ k₁ [] ⟨0, 2500⟩ h1 rfl h2 (by decide) (by decide)
  rw [kRtTskGet_reported (kRtTskSet_hasPeriod h1) h2] at hget
  have : reported (Timeval.period ⟨0, 2500⟩) = ⟨0, 2500⟩ := by simpa using hget
  exact absurd this (by decide)

end Rtx
