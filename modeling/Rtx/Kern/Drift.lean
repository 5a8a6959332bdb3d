/-
  File:      Rtx/Kern/Drift.lean
  Subject:   The deadlines of a real-time task do not drift.

  A job that is late makes up for the periods it has lost: its next deadline is the first one after
  the present tick that lies a multiple of the period away from the old one (`Advances`). So from
  `k_rt_tsk_set` on all deadlines of a task are in phase, in every run in which none of them comes
  to 2^32 (`deadline_never_drifts`). Nothing else is needed of the tick counts; they may even fall.
-/
import Mathlib.Data.Nat.ModEq
import Rtx.Kern.Period

namespace Rtx

open Lib

variable {k k' k₁ : Kernel} {t : Tid} {es : List Event} {tv : Timeval}

/-! ## 1. The next deadline, without bounds -/

/-- The deadline behind `deadline` for a period, at a tick. -/
def followingDeadline (now deadline period : Nat) : Nat :=
  if deadline < now then deadline + ((now - deadline) / period + 1) * period
  else deadline + period

/-- **How a deadline `d` advances to `d'` at the tick `now`**: by one period if it is met, else to
    the one value in phase with it within a period from now. -/
structure Advances (now d period d' : Nat) : Prop where
  met : now ≤ d → d' = d + period
  missed : d < now → ∀ x, x = d' ↔ x ≡ d [MOD period] ∧ now < x ∧ x ≤ now + period
  phase : d' ≡ d [MOD period]
  future : now < d'
  later : d < d'
  release : d' - period ≤ max now d

/-- Two values in phase within the same period are equal. -/
theorem eq_of_modEq {n p x y : Nat} (h : x ≡ y [MOD p]) (hx : n < x) (hx' : x ≤ n + p) (hy : n < y)
    (hy' : y ≤ n + p) : x = y := by
  have hle : ∀ {x y}, x ≡ y [MOD p] → n < x → y ≤ n + p → x ≤ y → x = y := by
    intro x y h hx hy hxy
    have hdvd : p ∣ y - x := (Nat.modEq_iff_dvd' hxy).mp h
    have hlt : y - x < p := by omega
    have hzero := Nat.eq_zero_of_dvd_of_lt hdvd hlt
    omega
  rcases Nat.le_total x y with hxy | hxy
  · exact hle h hx hy' hxy
  · exact (hle h.symm hy hx' hxy).symm

theorem followingDeadline_advances (now d : Nat) {period : Nat} (hp : 0 < period) :
    Advances now d period (followingDeadline now d period) := by
  unfold followingDeadline
  by_cases hlt : d < now
  · rw [if_pos hlt]
    -- the quotient counts the periods that are lost
    have hq := Nat.div_add_mod (now - d) period
    have hm := Nat.mod_lt (now - d) hp
    set n := (now - d) / period
    have hd : d + (n + 1) * period = d + period * n + period := by ring
    have hphase : d + (n + 1) * period ≡ d [MOD period] := by
      rw [Nat.ModEq, Nat.add_mul_mod_self_right]
    have hwin : now < d + (n + 1) * period ∧ d + (n + 1) * period ≤ now + period := by
      rw [hd]
      omega
    refine ⟨fun h => absurd hlt h.not_gt, fun _ x => ⟨?_, fun hx => ?_⟩, hphase, hwin.1, ?_, ?_⟩
    · rintro rfl
      exact ⟨hphase, hwin⟩
    · exact eq_of_modEq (hx.1.trans hphase.symm) hx.2.1 hx.2.2 hwin.1 hwin.2
    · omega
    · exact (Nat.sub_le_of_le_add hwin.2).trans (le_max_left _ _)
  · rw [if_neg hlt]
    have hle := not_lt.mp hlt
    refine ⟨fun _ => rfl, fun h => absurd h hlt, ?_, by omega, by omega, ?_⟩
    · rw [Nat.ModEq, Nat.add_mod_right]
    · exact (Nat.add_sub_cancel d period).le.trans (le_max_right _ _)

/-! ## 2. The next deadline in 32 bits -/

/-- As long as it fits, the deadline that the code computes is the one it means. -/
theorem nextDeadline_eq {d period : Nat} (hp : 0 < period)
    (h : followingDeadline k.timerCount d period < 2 ^ 32) :
    k.nextDeadline d period = followingDeadline k.timerCount d period := by
  have hadv := followingDeadline_advances k.timerCount d hp
  unfold Kernel.nextDeadline
  by_cases hlt : d < k.timerCount
  · have hsub := sub32_eq hlt.le (hadv.future.trans h)
    have hval : followingDeadline k.timerCount d period =
        d + ((k.timerCount - d) / period + 1) * period := if_pos hlt
    rw [if_pos hlt]
    simp only
    rw [hval] at h ⊢
    rw [hsub, Nat.mod_eq_of_lt (Nat.lt_of_le_of_lt (Nat.le_add_left _ d) h), add32_eq h]
  · have hval : followingDeadline k.timerCount d period = d + period := if_neg hlt
    rw [if_neg hlt]
    rw [hval] at h ⊢
    exact add32_eq h

/-! ## 3. The deadlines of a run -/

/-- If the event is a `k_rt_tsk_susp` of the task `t`, its next deadline fits in 32 bits. -/
def Kernel.DeadlineFits (t : Tid) (k : Kernel) : Event → Prop
  | .call .rtTskSusp => k.current = t →
      followingDeadline k.timerCount (k.data t).tskDeadline (k.data t).tskPeriod < 2 ^ 32
  | _ => True

instance (t : Tid) (k : Kernel) (e : Event) : Decidable (k.DeadlineFits t e) :=
  match e with
  | .call .rtTskSusp => inferInstanceAs (Decidable (_ → _))
  | .call (.memAlloc _) | .call (.memDealloc _) | .call (.tskCreate ..) | .call .tskExit
  | .call .tskYield | .call (.tskSetPrio ..) | .call (.tskGet ..) | .call .tskGettid
  | .call (.tskLs ..) | .call (.mbxCreate _) | .call (.mbxSend ..) | .call (.mbxSendNb ..)
  | .call (.mbxRecv ..) | .call (.mbxRecvNb ..) | .call (.mbxLs ..) | .call (.mbxGet _)
  | .call (.rtTskSet _) | .call (.rtTskGet ..) | .resume | .timer .. | .overwrite .. =>
      .isTrue trivial

/-- A real-time task of the period `p`, its deadline in phase with `d`. -/
structure InPhase (t : Tid) (p d : Nat) (k : Kernel) : Prop where
  period : HasPeriod t p k
  phase : (k.data t).tskDeadline ≡ d [MOD p]

/-- A `k_rt_tsk_susp` of a real-time task. -/
theorem kRtTskSusp_advances {p : Nat} {r : Int} (h : HasPeriod k.current p k) (hp : 0 < p)
    (hf : k.DeadlineFits k.current (.call .rtTskSusp)) (hx : k.kRtTskSusp = .ok (k', r)) :
    r = rtxOk ∧
      Advances k.timerCount k.cur.tskDeadline p (k'.data k.current).tskDeadline := by
  obtain ⟨hrt, -⟩ | ⟨-, hr, hst⟩ := (kRtTskSusp_steady k).of_ok hx
  · have := hrt.symm.trans h.1
    cases this
  refine ⟨hr, ?_⟩
  obtain ⟨-, hfol⟩ | ⟨hne, -⟩ := hst.follows_update (k.data_modifyTcb _ _) k.current
  · have hd : (k'.data k.current).tskDeadline =
        k.nextDeadline (k.data k.current).tskDeadline (k.data k.current).tskPeriod :=
      hfol.field TcbData.tskDeadline fun _ => rfl
    have hfit := hf rfl
    rw [h.2.2] at hd hfit
    rw [hd, nextDeadline_eq hp hfit]
    exact followingDeadline_advances _ _ hp
  · exact absurd rfl hne

/-- It returns if the caller can be queued: `suspend_tsk` is a list that the caller is not in. -/
theorem kRtTskSusp_returns {l : List Tid} (hq : k.toTasks.Chain .suspend l) (hc : k.current ∉ l)
    (hrt : k.cur.realTime = true) (hp : k.cur.prio = prioRt) : ∃ r, k.kRtTskSusp = .ok r := by
  have hq' := (hq.modify k.current fun d => { d with state := .suspended }).modify k.current
    (TcbData.postpone (k.setTaskState k.current .suspended))
  obtain ⟨s, z, hs, -⟩ := hq'.pushTail card_tid hc fun _ => by
    rw [Tasks.modify_data, Tasks.modify_data, Function.update_self, Function.update_self]
    exact hp
  unfold Kernel.kRtTskSusp
  rw [if_neg (by simp [hrt])]
  exact ⟨_, bind_of_ok (bind_of_ok hs)⟩

/-- The step lemma: whatever happens, the deadline stays in phase. -/
theorem InPhase.step {p d : Nat} {e : Event} (h : InPhase t p d k) (hp : 0 < p)
    (hf : k.DeadlineFits t e) (hs : k.step e = some k') : InPhase t p d k' := by
  refine ⟨h.period.step hs, ?_⟩
  obtain ⟨r, hx⟩ := Kernel.step_eq_some.mp hs
  obtain ⟨-, hfol | ⟨rfl, rfl, hfol⟩ | ⟨tc, pc, -, hfol⟩⟩ :=
    (((exec_writes k e).of_ok hx).1 t).realTime h.period.1 h.period.2.1
  · rw [hfol.field TcbData.tskDeadline fun _ => rfl]
    exact h.phase
  · obtain ⟨x, hsusp, hret⟩ := bind_eq_ok.mp hx
    obtain ⟨k₂, r₂⟩ := x
    obtain rfl : k₂ = k' := congrArg Prod.fst (Except.ok.inj hret)
    exact (kRtTskSusp_advances h.period hp hf hsusp).2.phase.trans h.phase
  · rw [hfol.field TcbData.tskDeadline fun _ => rfl]
    exact h.phase

/-- The deadline that `k_rt_tsk_set` sets. -/
theorem kRtTskSet_deadline (h : k.kRtTskSet tv = .ok (k₁, rtxOk)) :
    (k₁.data k.current).tskDeadline = add32 (add32 k.timerCount 1) tv.period := by
  obtain ⟨-, h1⟩ | ⟨-, -, h1⟩ := (kRtTskSet_steady k tv).of_ok h
  · exact absurd (congrArg Prod.snd h1).symm rtxErr_ne_rtxOk
  obtain ⟨-, hf⟩ | ⟨hne, -⟩ := h1.follows_update (k.data_modifyTcb _ _) k.current
  · exact hf.field TcbData.tskDeadline fun _ => rfl
  · exact absurd rfl hne

/-- **Deadlines never drift.** In every run from a `k_rt_tsk_set` on in which no deadline of its
    caller comes to 2^32, that deadline is in phase with the first one, and each `k_rt_tsk_susp`
    of the task advances it; the call returns where `suspend_tsk` is a list without the task. -/
theorem deadline_never_drifts (hset : k.kRtTskSet tv = .ok (k₁, rtxOk)) (hp : 0 < tv.period)
    (h : Allowed Kernel.step (Kernel.DeadlineFits k.current) k₁ es)
    (hr : run Kernel.step k₁ es = some k') :
    (k'.data k.current).tskDeadline ≡ add32 (add32 k.timerCount 1) tv.period [MOD tv.period] ∧
      (k'.current = k.current → k'.DeadlineFits k.current (.call .rtTskSusp) →
        (∀ k'' r, k'.kRtTskSusp = .ok (k'', r) → r = rtxOk ∧ Advances k'.timerCount
          (k'.data k.current).tskDeadline tv.period (k''.data k.current).tskDeadline) ∧
        ∀ l, k'.toTasks.Chain .suspend l → k.current ∉ l → k'.cur.prio = prioRt →
          ∃ r, k'.kRtTskSusp = .ok r) := by
  have hI : InPhase k.current tv.period (add32 (add32 k.timerCount 1) tv.period) k' :=
    run_reached _ (fun _ _ _ hI hf hs => hI.step hp hf hs)
      ⟨kRtTskSet_hasPeriod hset, by rw [kRtTskSet_deadline hset]⟩ h hr
  refine ⟨hI.phase, fun hc hf => ?_⟩
  rw [← hc] at hI hf ⊢
  exact ⟨fun k'' r hx => kRtTskSusp_advances hI.period hp hf hx,
    fun l hq hl hprio => kRtTskSusp_returns hq hl hI.period.1 hprio⟩

/-- Two jobs: the first is in time, the second is found to be late. -/
def twoJobs : List Event := [.call .rtTskSusp, .timer 0 5000000]

theorem deadline_never_drifts_twoJobs : ∃ k₁ k',
    (bootKernel threeTasks).kRtTskSet ⟨0, 2500⟩ = .ok (k₁, rtxOk) ∧
    run Kernel.step k₁ twoJobs = some k' ∧ k'.cur.tskDeadline < k'.timerCount ∧
    (k'.data (bootKernel threeTasks).current).tskDeadline ≡
      add32 (add32 (bootKernel threeTasks).timerCount 1) (Timeval.period ⟨0, 2500⟩)
      [MOD Timeval.period ⟨0, 2500⟩] := by
  obtain ⟨x, hx, hd⟩ := (Option.any_eq_true (fun r : Kernel × Int => decide (r.2 = rtxOk ∧
    Allowed Kernel.step (Kernel.DeadlineFits (bootKernel threeTasks).current) r.1 twoJobs ∧
    (run Kernel.step r.1 twoJobs).any fun k' => k'.cur.tskDeadline < k'.timerCount))
    ((bootKernel threeTasks).kRtTskSet ⟨0, 2500⟩).toOption).mp (by decide +kernel)
  obtain ⟨h1, h2, h3⟩ := of_decide_eq_true hd
  obtain ⟨k', hk', hlate⟩ := (Option.any_eq_true _ _).mp h3
  have hset : (bootKernel threeTasks).kRtTskSet ⟨0, 2500⟩ = .ok (x.1, rtxOk) := by
    rw [← h1]
    exact toOption_eq_some.mp hx
  exact ⟨x.1, k', hset, hk', of_decide_eq_true hlate,
    (deadline_never_drifts hset (by decide) h2 hk').1⟩

end Rtx
