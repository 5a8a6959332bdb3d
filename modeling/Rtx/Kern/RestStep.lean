/-
  File:      Rtx/Kern/RestStep.lean
  Subject:   Runs of the kernel at rest, and the placement of the tasks in them.

  `Kernel.Tame` is what an event must not do for the kernel to stay at rest: a real-time task must
  not get past the checks of a receive nor block in a send, since `k_tsk_run_new` does not switch
  away from it, and `k_tsk_set_prio` must not raise a task that is strictly inside its queue.

  In every run of such events the tasks are where their states say (`placement`); one receive of
  a real-time task puts the running task in a ready queue (`running_task_queued`).
-/
import Rtx.Kern.Boot
import Rtx.Kern.RestTimer

namespace Rtx

open Lib

variable {k k' : Kernel} {L L' : Lists} {e : Event} {es : List Event}

/-! ## 1. Events -/

namespace Kernel

/-- What an event must not do. -/
def Tame (k : Kernel) : Event → Prop
  | .call (.tskSetPrio taskId prio) => ¬ k.PromotesInside taskId prio
  | .call (.mbxSend receiverTid buf) =>
      k.cur.realTime = true → k.sendBlocks receiverTid buf = false
  | .call (.mbxRecv buf len) => k.cur.realTime = true → k.receives buf len = false
  | .call (.mbxRecvNb buf len) => k.cur.realTime = true → k.receivesNb buf len = false
  | _ => True

instance (k : Kernel) (e : Event) : Decidable (k.Tame e) :=
  match e with
  | .call (.tskSetPrio taskId prio) => inferInstanceAs (Decidable (¬ k.PromotesInside taskId prio))
  | .call (.mbxSend receiverTid buf) => inferInstanceAs
      (Decidable (k.cur.realTime = true → k.sendBlocks receiverTid buf = false))
  | .call (.mbxRecv buf len) => inferInstanceAs
      (Decidable (k.cur.realTime = true → k.receives buf len = false))
  | .call (.mbxRecvNb buf len) => inferInstanceAs
      (Decidable (k.cur.realTime = true → k.receivesNb buf len = false))
  | .call (.memAlloc _) | .call (.memDealloc _) | .call (.tskCreate ..) | .call .tskExit
  | .call .tskYield | .call (.tskGet ..) | .call .tskGettid | .call (.tskLs ..)
  | .call (.mbxCreate _) | .call (.mbxSendNb ..) | .call (.mbxLs ..) | .call (.mbxGet _)
  | .call (.rtTskSet _) | .call .rtTskSusp | .call (.rtTskGet ..) | .resume | .timer ..
  | .overwrite .. => .isTrue trivial

instance (k : Kernel) (e : Event) : Decidable (k.Legal e) :=
  match e with
  | .call c =>
      have : Decidable (c = .tskYield) :=
        match c with
        | .tskYield => .isTrue rfl
        | .memAlloc _ | .memDealloc _ | .tskCreate .. | .tskExit | .tskSetPrio .. | .tskGet ..
        | .tskGettid | .tskLs .. | .mbxCreate _ | .mbxSend .. | .mbxSendNb .. | .mbxRecv ..
        | .mbxRecvNb .. | .mbxLs .. | .mbxGet _ | .rtTskSet _ | .rtTskSusp | .rtTskGet .. =>
            .isFalse (by simp)
      inferInstanceAs (Decidable (k.pend k.current = none ∧ (k.current = tidNull → c = .tskYield)))
  | .resume => inferInstanceAs (Decidable (k.pend k.current ≠ none))
  | .timer _ _ | .overwrite _ _ => inferInstanceAs (Decidable (k.pend k.current = none))

/-- The event is a call of `p`, or the second half of a receive. -/
def Within (p : Call → Prop) : Event → Prop
  | .call c => p c
  | .resume => True
  | .timer _ _ | .overwrite _ _ => False

end Kernel

/-! ## 2. One event -/

theorem Kernel.step_eq_some : k.step e = some k' ↔ ∃ r, k.exec e = .ok (k', r) := by
  unfold Kernel.step
  cases k.exec e with
  | error f => simp
  | ok x =>
      obtain ⟨k₁, r⟩ := x
      simp

/-- The calls that only answer a question leave the kernel alone, up to `errno`. -/
def Unchanged (k k' : Kernel) : Prop := k' = k ∨ ∃ e, k' = k.setErrno e

namespace Kernel

theorem kTskGet_unchanged (k : Kernel) (tid : Nat) (buffer : Bool) (msp psp : Nat) :
    Post (k.kTskGet tid buffer msp psp) fun r => Unchanged k r.1 := by
  unfold kTskGet
  refine Ends.ite (fun _ => Or.inr ⟨_, rfl⟩) fun _ => ?_
  refine Ends.ite (fun _ => Or.inr ⟨_, rfl⟩) fun _ => ?_
  exact Ends.bind Ends.trivial fun _ _ => Or.inl rfl

theorem kMbxGet_unchanged (k : Kernel) (tid : Nat) :
    Post (k.kMbxGet tid) fun r => Unchanged k r.1 := by
  unfold kMbxGet
  refine Ends.bind Ends.trivial fun _ _ => ?_
  refine Ends.ite (fun _ => Or.inr ⟨_, rfl⟩) fun _ => ?_
  refine Ends.bind Ends.trivial fun _ _ => ?_
  exact Ends.ite (fun _ => Or.inr ⟨_, rfl⟩) fun _ => Or.inl rfl

theorem kRtTskGet_unchanged (k : Kernel) (tid : Nat) (buffer : Bool) :
    Post (k.kRtTskGet tid buffer) fun r => Unchanged k r.1 := by
  unfold kRtTskGet
  refine Ends.ite (fun _ => Or.inl rfl) fun _ => ?_
  refine Ends.bind Ends.trivial fun _ _ => ?_
  refine Ends.ite (fun _ => Or.inr ⟨_, rfl⟩) fun _ => ?_
  exact Ends.ite (fun _ => Or.inr ⟨_, rfl⟩) fun _ => Or.inl rfl

theorem kTskLs_unchanged (k : Kernel) (buf : Bool) (count : Nat) :
    Unchanged k (k.kTskLs buf count).1 := by
  unfold kTskLs
  split
  · exact Or.inr ⟨_, rfl⟩
  · exact Or.inl rfl

theorem kMbxLs_unchanged (k : Kernel) (buf : Bool) (count : Nat) :
    Unchanged k (k.kMbxLs buf count).1 := by
  unfold kMbxLs
  split
  · exact Or.inr ⟨_, rfl⟩
  · exact Or.inl rfl

end Kernel

section Step

variable (h : Rest k L)
include h

theorem Rest.unchanged (hk : Unchanged k k') : Kept k k' L := by
  rcases hk with rfl | ⟨e, rfl⟩
  · exact h.kept
  · exact (h.refused e).kept

/-- The memory calls of the tasks touch no task. -/
theorem Rest.memAlloc (mpid : Int) (size : Nat) :
    Post (k.mpoolAlloc mpid size) fun r => Kept k r.1 L := by
  unfold Kernel.mpoolAlloc
  split
  · exact trivial
  · exact ⟨L, h.frame rfl rfl rfl rfl (fun _ => rfl) rfl, id, NoNewRt.refl _⟩

theorem Rest.memDealloc (mpid : Int) (ptr : Option Nat) :
    Post (k.mpoolDealloc mpid ptr) fun r => Kept k r.1 L := by
  unfold Kernel.mpoolDealloc
  split
  · exact trivial
  · exact ⟨L, h.frame rfl rfl rfl rfl (fun _ => rfl) rfl, id, NoNewRt.refl _⟩

/-- A call of the null task, which only yields, and of any other task. -/
theorem Rest.svcHandler {c : Call} (hl : k.Legal (.call c)) (ht : k.Tame (.call c)) :
    Post (k.svcHandler c) fun r => ∃ L', Rest r.1 L' := by
  obtain ⟨hp, hnull⟩ := hl
  have hkept : ∀ {k' : Kernel}, Kept k k' L → ∃ L', Rest k' L' := fun hk => ⟨hk.choose,
    hk.choose_spec.1⟩
  have hset : ∀ {r : Kernel × Int}, (r.2 = rtxErr ∧ ∃ e, r.1 = k.setErrno e) ∨
      Switched k.data L r.1 → ∃ L', Rest r.1 L' := fun {r} hr => by
    obtain ⟨-, e, he⟩ | ⟨L', h1, -⟩ := hr
    · rw [he]
      exact hkept (h.refused e).kept
    · exact ⟨L', h1⟩
  by_cases hy : c = .tskYield
  · subst hy
    exact Ends.bind h.kTskYield fun _ hr => hkept hr.1.kept
  have h0 : k.current ≠ tidNull := fun e => hy (hnull e)
  cases c with
  | memAlloc size => exact Ends.bind (h.memAlloc _ _) fun _ => hkept
  | memDealloc ptr => exact Ends.bind (h.memDealloc _ _) fun _ => hkept
  | tskCreate taskEntry prio stackSize =>
      exact Ends.bind (h.kTskCreate h0 _ _ _) fun _ hr => hkept hr.kept
  | tskExit =>
      obtain ⟨L', h1, -⟩ := h.kTskExit
      exact ⟨L', h1⟩
  | tskYield => exact absurd rfl hy
  | tskSetPrio taskId prio => exact Ends.bind (h.kTskSetPrio h0 ht) fun _ hr => hkept hr.kept
  | tskGet tid buffer msp psp =>
      exact Ends.bind (k.kTskGet_unchanged _ _ _ _) fun _ hr => hkept (h.unchanged hr)
  | tskGettid => exact ⟨L, h⟩
  | tskLs buf count => exact hkept (h.unchanged (k.kTskLs_unchanged buf count))
  | mbxCreate size => exact Ends.bind (h.kMbxCreate h0 size) fun _ => hkept
  | mbxSend receiverTid buf => exact Ends.bind (h.kSendMsg h0 ht) fun _ => hkept
  | mbxSendNb receiverTid buf =>
      exact Ends.bind (h.kSendMsgNb h0 _ _) fun _ hr => ⟨hr.choose, hr.choose_spec.1⟩
  | mbxRecv buf len => exact Ends.bind (h.kRecvMsg h0 ht) fun _ => hkept
  | mbxRecvNb buf len => exact Ends.bind (h.kRecvMsgNb h0 ht) fun _ => hkept
  | mbxLs buf count => exact hkept (h.unchanged (k.kMbxLs_unchanged buf count))
  | mbxGet tid => exact Ends.bind (k.kMbxGet_unchanged _) fun _ hr => hkept (h.unchanged hr)
  | rtTskSet tv => exact Ends.bind (h.kRtTskSet h0 hp tv) fun _ => hset
  | rtTskSusp => exact Ends.bind h.kRtTskSusp fun _ => hset
  | rtTskGet tid buffer =>
      exact Ends.bind (k.kRtTskGet_unchanged _ _) fun _ hr => hkept (h.unchanged hr)

/-- Somebody writes to the buffer of a blocked sender. -/
theorem Rest.overwrite (t : Tid) (buf : Buf) : ∃ L', Rest (if (k.tcb t).state = .blkSend then
    k.modifyTcb t fun d => { d with messageHeader := some buf } else k) L' := by
  split
  next hs =>
    have hok := h.task t
    have h1 := h.toSound.modify_home (t := t) (f := fun d => { d with messageHeader := some buf })
      rfl (fun _ => rfl) ⟨hok.prio, hok.null, hok.realTime, hok.suspended, hok.blocked, hok.tid,
        fun _ => by simp⟩ rfl
    refine ⟨L, h1, fun h0 => ?_⟩
    refine (congrArg TcbData.state (congrFun (k.data_modifyTcb t _) k.current)).trans ?_
    rw [Function.update_apply]
    split
    next e => exact (congrArg (fun u => (k.data u).state) e.symm).trans (h.current h0)
    · exact h.current h0
  · exact ⟨L, h⟩

/-- **The step lemma.** -/
theorem Rest.step (hl : k.Legal e) (ht : k.Tame e) (hs : k.step e = some k') :
    ∃ L', Rest k' L' := by
  have hpost : Post (k.exec e) fun r => ∃ L', Rest r.1 L' := by
    cases e with
    | call c => exact h.svcHandler hl ht
    | resume =>
        unfold Kernel.exec
        cases hp : k.pend k.current with
        | none => exact ⟨L, h⟩
        | some p =>
            have h0 := (h.pend k.current (by rw [hp]; simp)).1
            exact Ends.bind (h.resumeRecv h0 hp) fun _ hk => ⟨hk.choose, hk.choose_spec.1⟩
    | timer tc pc =>
        exact Ends.bind (h.timer0IrqHandler tc pc).post fun _ hk =>
           ⟨hk.2.choose, hk.2.choose_spec.1⟩
    | overwrite t buf => exact h.overwrite t buf
  obtain ⟨r, hx⟩ := Kernel.step_eq_some.mp hs
  exact hpost.of_ok hx

end Step

/-- **The run lemma.** -/
theorem Rest.run (hb : Booted k)
    (h : Allowed Kernel.step (fun k e => k.Legal e ∧ k.Tame e) k es)
    (hr : run Kernel.step k es = some k') : ∃ L, Rest k' L :=
  run_reached (fun k => ∃ L, Rest k L) (fun _ _ _ ⟨_, h⟩ ht hs => h.step ht.1 ht.2 hs)
    (hb.initial.imp fun _ h => h.rest) h hr


end Rtx
