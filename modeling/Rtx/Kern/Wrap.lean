/-
  File:      Rtx/Kern/Wrap.lean
  Subject:   Releases and missed deadlines where the tick count wraps.

  The deadlines are computed modulo 2^32, but compared as numbers. `k.shift c` is `k` with `c` added
  to the tick count and to every deadline: a release is judged in both states alike exactly when the
  addition takes both the release and the tick count past the wrap, or neither of them.
-/
import Rtx.Kern.Tick
import Rtx.Lib.Counter

namespace Rtx

open Lib

variable {k k' : Kernel} {L L' : Lines} {t : Tid} {c : Nat}

/-! ## 1. The same state at another time -/

/-- The tick count and all deadlines, advanced by `c`. -/
def Kernel.shift (k : Kernel) (c : Nat) : Kernel :=
  { k with
    tcb := fun t => { k.tcb t with tskDeadline := add32 (k.tcb t).tskDeadline c }
    timerCount := add32 k.timerCount c }

/-- The times are `U32` values. -/
structure Kernel.InRange (k : Kernel) : Prop where
  timerCount : k.timerCount < 2 ^ 32
  tskDeadline : ∀ t, (k.data t).tskDeadline < 2 ^ 32

instance Kernel.InRange.decidable (k : Kernel) : Decidable k.InRange :=
  decidable_of_iff (k.timerCount < 2 ^ 32 ∧ ∀ t, (k.data t).tskDeadline < 2 ^ 32)
    ⟨fun ⟨h1, h2⟩ => ⟨h1, h2⟩, fun h => ⟨h.timerCount, h.tskDeadline⟩⟩

/-- When the next period of a suspended task begins. -/
def TcbData.release (d : TcbData) : Nat := sub32 d.tskDeadline d.tskPeriod

theorem shift_release (k : Kernel) (c : Nat) (t : Tid) :
    ((k.shift c).data t).release = add32 (k.data t).release c := advance_comm _

/-- The lists are the same. -/
theorem Lineup.shift (h : Lineup k L) (c : Nat) : Lineup (k.shift c) L where
  listed := Tasks.Rep.congr h.listed ⟨rfl, fun _ => rfl, fun _ => rfl, rfl⟩
  held := h.held
  member q t ht := ⟨(h.member q t ht).prio, (h.member q t ht).realTime⟩
  running := h.running
  current h0 := by
    obtain ⟨i, hi⟩ := h.current h0
    exact ⟨i, hi.prio, hi.realTime⟩
  null := h.null

/-! ## 2. What is compared -/

/-- The two interrupts move the same tasks from `suspend_tsk` to the queue of the real-time tasks,
    before they make their choice. -/
def SameReleases (k k' : Kernel) (L : Lines) (tc pc tc' pc' : Nat) : Prop :=
  ∃ k₁ L₁ k₂ L₂, k.timer0IrqHandler tc pc = k₁.preempt ∧
    Releases { k with timerCount := Kernel.correctRound tc pc } k₁ L L₁ ∧
    k'.timer0IrqHandler tc' pc' = k₂.preempt ∧
    Releases { k' with timerCount := Kernel.correctRound tc' pc' } k₂ L L₂ ∧
    ∀ t ∈ L none, (t ∈ L₁ (some 0) ↔ t ∈ L₂ (some 0))

/-- The two calls of `k_rt_tsk_susp` agree on whether the deadline was missed, and the deadlines
    behind them differ by `c`. -/
def SameJobEnd (k k' : Kernel) (c : Nat) : Prop :=
  ∃ k₁ k₂, k.kRtTskSusp = .ok (k₁, rtxOk) ∧ k'.kRtTskSusp = .ok (k₂, rtxOk) ∧
    (k'.cur.tskDeadline < k'.timerCount ↔ k.cur.tskDeadline < k.timerCount) ∧
    ∀ t, (k₂.data t).tskDeadline = add32 (k₁.data t).tskDeadline c

/-- A suspended task is released if and only if it is due. -/
theorem Releases.released_iff (h : Releases k k' L L') (hl : Lined k L) (ht : t ∈ L none) :
    t ∈ L' (some 0) ↔ k.due t = true := by
  rw [h.released]
  refine ⟨fun ho => (ho.resolve_left fun h0 => ?_).2, fun hd => Or.inr ⟨ht, hd⟩⟩
  have := hl.listed.disj none (some 0) t ht h0
  cases this

/-- A missed deadline moves the next one by whole periods, whatever the time. -/
theorem nextDeadline_shift (h : k.InRange) (hc : c < 2 ^ 32) {d : Nat} (hd : d < 2 ^ 32)
    (hmiss : (k.shift c).timerCount > add32 d c ↔ k.timerCount > d) (period : Nat) :
    (k.shift c).nextDeadline (add32 d c) period = add32 (k.nextDeadline d period) c := by
  have hdist : sub32 (k.shift c).timerCount (add32 d c) = sub32 k.timerCount d :=
    advance_distance hd h.timerCount hc
  unfold Kernel.nextDeadline
  by_cases hlt : d < k.timerCount
  · rw [if_pos hlt, if_pos (hmiss.mpr hlt), hdist]
    exact advance_comm _
  · rw [if_neg hlt, if_neg (mt hmiss.mp hlt)]
    exact advance_comm _

/-! ## 3. The wrap -/

theorem releases_survive_wrap (h : Lineup k L) (hs : L none ≠ []) (hw : k.InRange)
    (hc : c < 2 ^ 32) {tc pc tc' pc' : Nat}
    (hN : Kernel.correctRound tc' pc' = add32 (Kernel.correctRound tc pc) c) :
    (SameReleases k (k.shift c) L tc pc tc' pc' ↔ ∀ t ∈ L none,
      (Wraps (2 ^ 32) c (k.data t).release ↔ Wraps (2 ^ 32) c (Kernel.correctRound tc pc))) ∧
    (k.cur.realTime = true → (SameJobEnd k (k.shift c) c ↔
      (Wraps (2 ^ 32) c k.cur.tskDeadline ↔ Wraps (2 ^ 32) c k.timerCount))) := by
  have h' := h.shift c
  constructor
  · -- one task: the two judgements agree exactly when the condition holds of it
    have hone : ∀ t, ((Kernel.due { k.shift c with timerCount := Kernel.correctRound tc' pc' } t =
        true ↔ Kernel.due { k with timerCount := Kernel.correctRound tc pc } t = true) ↔
        (Wraps (2 ^ 32) c (k.data t).release ↔
          Wraps (2 ^ 32) c (Kernel.correctRound tc pc))) := fun t => by
      have hr : (k.data t).release < 2 ^ 32 := Nat.mod_lt _ (by decide)
      have hn : Kernel.correctRound tc pc < 2 ^ 32 := Nat.mod_lt _ (by decide)
      rw [← advance_le_iff hr hn hc]
      unfold Kernel.due
      rw [decide_eq_true_iff, decide_eq_true_iff]
      change (((k.shift c).data t).release ≤ Kernel.correctRound tc' pc' ↔ _) ↔ _
      rw [shift_release, hN]
      exact Iff.rfl
    constructor
    · rintro ⟨k₁, L₁, k₂, L₂, -, h1, -, h2, h3⟩ t ht
      have h4 := h3 t ht
      rw [h1.released_iff (h.frame rfl rfl) ht, h2.released_iff (h'.frame rfl rfl) ht] at h4
      exact (hone t).mp h4.symm
    · intro hall
      obtain ⟨k₁, L₁, h1, h2⟩ := h.releases hs tc pc
      obtain ⟨k₂, L₂, h3, h4⟩ := h'.releases hs tc' pc'
      refine ⟨k₁, L₁, k₂, L₂, h1, h2, h3, h4, fun t ht => ?_⟩
      rw [h2.released_iff (h.frame rfl rfl) ht, h4.released_iff (h'.frame rfl rfl) ht]
      exact ((hone t).mpr (hall t ht)).symm
  · intro hrt
    have hd : k.cur.tskDeadline < 2 ^ 32 := hw.tskDeadline k.current
    have hmiss := advance_lt_iff hd hw.timerCount hc
    constructor
    · rintro ⟨k₁, k₂, -, -, h1, -⟩
      exact hmiss.mp h1
    · intro hall
      obtain ⟨k₁, L₁, h1, h2⟩ := h.kRtTskSusp hrt
      obtain ⟨k₂, L₂, h3, h4⟩ := h'.kRtTskSusp hrt
      refine ⟨k₁, k₂, h1, h3, hmiss.mpr hall, fun t => ?_⟩
      rw [h2.tskDeadline, h4.tskDeadline, show (k.shift c).current = k.current from rfl]
      by_cases e : t = k.current
      · subst e
        rw [if_pos rfl, if_pos rfl]
        exact nextDeadline_shift hw hc hd (hmiss.mpr hall) _
      · rw [if_neg e, if_neg e]
        rfl

/-- Two ticks after its release task 14 is released, but not where the tick count has wrapped
    between the two. -/
theorem release_lost_at_wrap :
    ∃ k, reached threeTasks [.call (.rtTskSet ⟨0, 2500⟩), .call .rtTskSusp] = some k ∧
      Lineup k suspendedLines ∧ k.InRange ∧
      (∀ t, (k.data t).realTime = true → 0 < (k.data t).tskPeriod ∧ (k.data t).tskPeriod < 2 ^ 30) ∧
      (∀ t, (k.data t).tskDeadline < Kernel.correctRound 0 400000 + 2 ^ 30 ∧
        Kernel.correctRound 0 400000 < (k.data t).tskDeadline + 2 ^ 30) ∧
      Kernel.correctRound 0 50000 = add32 (Kernel.correctRound 0 400000) (2 ^ 32 - 7) ∧
      ¬ SameReleases k (k.shift (2 ^ 32 - 7)) suspendedLines 0 400000 0 50000 := by
  obtain ⟨k, hk, hd⟩ := (Option.any_eq_true (fun k : Kernel => decide (Lineup k suspendedLines ∧
    k.InRange ∧
    (∀ t, (k.data t).realTime = true → 0 < (k.data t).tskPeriod ∧ (k.data t).tskPeriod < 2 ^ 30) ∧
    (∀ t, (k.data t).tskDeadline < Kernel.correctRound 0 400000 + 2 ^ 30 ∧
      Kernel.correctRound 0 400000 < (k.data t).tskDeadline + 2 ^ 30) ∧
    Kernel.correctRound 0 50000 = add32 (Kernel.correctRound 0 400000) (2 ^ 32 - 7) ∧
    Kernel.due { k with timerCount := Kernel.correctRound 0 400000 } 14 = true ∧
    Kernel.due { k.shift (2 ^ 32 - 7) with timerCount := Kernel.correctRound 0 50000 } 14 = false))
    (reached threeTasks [.call (.rtTskSet ⟨0, 2500⟩), .call .rtTskSusp])).mp (by decide +kernel)
  obtain ⟨h1, h2, h3, h4, h5, h6, h7⟩ := of_decide_eq_true hd
  refine ⟨k, hk, h1, h2, h3, h4, h5, ?_⟩
  generalize (2 ^ 32 - 7 : Nat) = c at h7 ⊢
  rintro ⟨k₁, L₁, k₂, L₂, -, hr₁, -, hr₂, hall⟩
  have h14 : (14 : Tid) ∈ suspendedLines none := List.mem_singleton.mpr rfl
  have h8 := hall 14 h14
  rw [hr₁.released_iff (h1.frame rfl rfl) h14,
    hr₂.released_iff ((h1.shift c).frame rfl rfl) h14, h6, h7] at h8
  cases h8.mp rfl

theorem releases_survive_wrap_suspended :
    ∃ k, reached threeTasks [.call (.rtTskSet ⟨0, 2500⟩), .call .rtTskSusp] = some k ∧
      SameReleases k (k.shift 7) suspendedLines 0 400000 0 750000 := by
  obtain ⟨k, hk, hd⟩ := (Option.any_eq_true (fun k : Kernel => decide (Lineup k suspendedLines ∧
    k.InRange ∧ Kernel.correctRound 0 750000 = add32 (Kernel.correctRound 0 400000) 7 ∧
    ∀ t ∈ suspendedLines none, (Wraps (2 ^ 32) 7 (k.data t).release ↔
      Wraps (2 ^ 32) 7 (Kernel.correctRound 0 400000))))
    (reached threeTasks [.call (.rtTskSet ⟨0, 2500⟩), .call .rtTskSusp])).mp (by decide +kernel)
  obtain ⟨h1, h2, h3, h4⟩ := of_decide_eq_true hd
  exact ⟨k, hk, (releases_survive_wrap h1 (by decide) h2 (by decide) h3).1.mpr h4⟩

end Rtx
