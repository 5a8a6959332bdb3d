/-
  File:      Rtx/Kern/Scheduling.lean
  Subject:   What holds of the tasks, the scheduler and the timer interrupt in whole runs.

  * `placement`: in a run of tame events every task is in the one list its state calls for, and the
    running task in none. A receive of a real-time task breaks it (`running_task_queued`).
  * `priority`: in a run of tasks that are not real-time tasks no ready task is above the running
    one and none is lost, if nobody raises a task strictly inside its queue and nobody wakes a
    higher task under the name of the UART. Raising such a task loses it (`ready_task_lost`).
  * `tick`: in the states of tame runs the interrupt handler returns exactly when it is safe to
    fire. It is not right after the boot (`tick_after_boot`).
-/
import Rtx.Kern.RestStep

namespace Rtx

open Lib

variable {k k' : Kernel} {L L' : Lists} {e : Event} {es : List Event} {t : Tid} {q : QId}

/-! ## 1. The placement of the tasks -/

/-- The tasks met from the HEAD of a queue on. -/
def Kernel.members (k : Kernel) (q : QId) : List Tid :=
  walk (fun t => (k.tcb t).next) 17 (k.queue q).head

/-- **Exclusive placement**: no task is twice in the queues, the running task is in none, and any
    task but the null task is where its state says. -/
structure Exclusive (k : Kernel) : Prop where
  once : ∀ q, (k.members q).Nodup
  one : ∀ q q' t, t ∈ k.members q → t ∈ k.members q' → q = q'
  current : ∀ q, k.current ∉ k.members q
  ready : ∀ t, t ≠ tidNull → ((k.tcb t).state = .ready ↔
    ∃ q, readyAt (priority2order (k.tcb t).prio) = .ok q ∧ t ∈ k.members q)
  blkSend : ∀ t, t ≠ tidNull → ((k.tcb t).state = .blkSend ↔ ∃ m, t ∈ k.members (.waiting m))
  suspended : ∀ t, t ≠ tidNull → ((k.tcb t).state = .suspended ↔ t ∈ k.members .suspend)

/-- The queues hold their lists. -/
theorem Placed.members {H X : Set Tid} (h : Placed k.toTasks L H X) (q : QId) :
    k.members q = L q := by
  have hc := h.rep.chain q
  unfold Kernel.members
  rw [hc.head]
  refine hc.linked.walk_eq ?_
  have := hc.nodup.length_le_card
  rw [Fintype.card_fin] at this
  omega

theorem Rest.members (h : Rest k L) (q : QId) : k.members q = L q := h.placed.members q

/-- A task in the place of its state, running or not. -/
theorem Rest.inPlace (h : Rest k L) (h0 : t ≠ tidNull) : InPlace L t (k.data t) := by
  by_cases hc : t = k.current
  · subst hc
    exact inPlace_out (Or.inr (Or.inl (h.current h0))) (h.placed.out _ (Or.inl rfl))
  · exact h.placed.home t h0 hc

theorem Rest.exclusive (h : Rest k L) : Exclusive k := by
  have hm : k.members = L := funext h.members
  have hstate : ∀ {t q}, t ∈ L q → (k.tcb t).state = q.state := h.placed.state_of_mem
  refine ⟨fun q => ?_, fun q q' t => ?_, fun q => ?_, fun t h0 => ?_, fun t h0 => ?_,
    fun t h0 => ?_⟩
  all_goals rw [hm]
  · exact (h.placed.rep.chain q).nodup
  · exact h.placed.rep.disj q q' t
  · exact h.placed.out _ (Or.inl rfl) q
  · refine ⟨fun hs => ?_, fun ⟨q, hq, hmem⟩ => ?_⟩
    · have hp := h.inPlace h0
      unfold InPlace at hp
      rw [show (k.data t).state = .ready from hs] at hp
      obtain ⟨i, hi, hmem⟩ := hp
      exact ⟨_, hi, hmem⟩
    · obtain ⟨i, -, rfl⟩ := readyAt_eq_ok.mp hq
      exact hstate hmem
  · refine ⟨fun hs => ?_, fun ⟨m, hmem⟩ => hstate hmem⟩
    have hp := h.inPlace h0
    unfold InPlace at hp
    rw [show (k.data t).state = .blkSend from hs] at hp
    exact hp
  · exact h.mem_suspend.symm

/-- **In every run of tame events the tasks are where they belong.** -/
theorem placement (hb : Booted k)
    (h : Allowed Kernel.step (fun k e => k.Legal e ∧ k.Tame e) k es)
    (hr : run Kernel.step k es = some k') : Exclusive k' := by
  obtain ⟨L, hL⟩ := Rest.run hb h hr
  exact hL.exclusive

/-- A task creates another, sends to itself and receives, becomes a real-time task, sends once more
    and sleeps. -/
def tameEvents : List Event :=
  let hello : Buf := fun i => if i = 0 then 6 else 0
  [.call (.tskCreate 7 high 0), .call (.mbxCreate 64), .call (.mbxSend 14 hello),
    .call (.mbxRecv (some hello) 64), .call .tskYield, .call .tskYield, .call .tskYield,
    .call (.rtTskSet ⟨0, 2500⟩), .call (.mbxSendNb 14 hello), .call .rtTskSusp]

/-- The state the events lead to from a boot. -/
def reached (tasks : List TaskInit) (es : List Event) : Option Kernel :=
  run Kernel.step (bootKernel tasks) es

theorem placement_tame : ∃ k', reached threeTasks tameEvents = some k' ∧ Exclusive k' :=
  have hr : (reached threeTasks tameEvents).isSome = true := by decide +kernel
  ⟨_, (Option.some_get hr).symm, placement booted_threeTasks (by decide +kernel)
    (Option.some_get hr).symm⟩

/-- The calls of the tasks, with a valid priority for a new one. -/
def Call.scheduling : Call → Bool
  | .tskCreate _ prio _ => prio ∈ [high, medium, low, lowest]
  | .tskYield | .tskSetPrio .. | .mbxCreate _ | .mbxSend .. | .mbxSendNb .. | .mbxRecv ..
  | .mbxRecvNb .. => true
  | _ => false

def Call.placing : Call → Bool
  | .rtTskSet _ | .rtTskSusp => true
  | c => c.scheduling

instance (p : Call → Bool) (e : Event) : Decidable (Kernel.Within (p · = true) e) :=
  match e with
  | .call c => inferInstanceAs (Decidable (p c = true))
  | .resume => .isTrue trivial
  | .timer .. | .overwrite .. => .isFalse id

/-- A real-time task receives its own message. -/
def realTimeReceive : List Event :=
  let hello : Buf := fun i => if i = 0 then 6 else 0
  [.call (.mbxCreate 64), .call (.mbxSend 14 hello), .call (.rtTskSet ⟨0, 2500⟩),
    .call (.mbxRecvNb (some hello) 64)]

/-- **The running task is left in a ready queue** by a receive of a real-time task. -/
theorem running_task_queued : ¬ ∀ (k k' : Kernel) (es : List Event), Booted k →
    Allowed Kernel.step (fun k e => k.Legal e ∧ Kernel.Within (Call.placing · = true) e) k es →
    run Kernel.step k es = some k' → Exclusive k' := by
  intro h
  have hr : (reached threeTasks realTimeReceive).any
      (fun k => k.current ∈ k.members (.ready 0)) = true := by decide +kernel
  obtain ⟨k', hk, hmem⟩ := (Option.any_eq_true _ _).mp hr
  have hex := h _ k' realTimeReceive booted_threeTasks (by decide +kernel) hk
  exact hex.current (.ready 0) (of_decide_eq_true hmem)

/-! ## 2. Preemptive scheduling by priority -/

/-- **The running task is of the highest priority, and no ready task is lost**: it can be reached from
    the HEAD of the ready queue of its priority. -/
structure Scheduled (k : Kernel) : Prop where
  highest : ∀ t, (k.tcb t).state = .ready → k.cur.prio ≤ (k.tcb t).prio
  reachable : ∀ t, t ≠ tidNull → (k.tcb t).state = .ready →
    ∃ q, readyAt (priority2order (k.tcb t).prio) = .ok q ∧ t ∈ k.members q

theorem Rest.scheduled (h : Rest k L) (hT : Top k L) : Scheduled k := by
  refine ⟨fun t hs => ?_, fun t h0 hs => (h.exclusive.ready t h0).mp hs⟩
  by_cases h0 : t = tidNull
  · -- the null task is below all others
    subst h0
    rw [show (k.tcb tidNull).prio = prioNull from ((h.task tidNull).null rfl).1]
    by_cases hc : k.current = tidNull
    · exact (((h.task _).null hc).1).le
    · obtain ⟨-, i, hi, -⟩ := h.running hc
      exact hi ▸ (order2priority_lt_null i).le
  · have hp := h.inPlace h0
    unfold InPlace at hp
    rw [show (k.data t).state = .ready from hs] at hp
    obtain ⟨i, hi, hmem⟩ := hp
    exact (hT i t hmem).trans (readyAt_priority.mp hi).ge

/-- What a call must not do to the order of the tasks. -/
def Kernel.Orderly (k : Kernel) : Event → Prop
  | .call (.tskSetPrio taskId prio) => ¬ k.PromotesInside taskId prio
  | .call (.mbxSendNb receiverTid buf) => k.outranked receiverTid buf = false
  | _ => True

instance (k : Kernel) (e : Event) : Decidable (k.Orderly e) :=
  match e with
  | .call (.tskSetPrio taskId prio) => inferInstanceAs (Decidable (¬ k.PromotesInside taskId prio))
  | .call (.mbxSendNb receiverTid buf) =>
      inferInstanceAs (Decidable (k.outranked receiverTid buf = false))
  | .call (.memAlloc _) | .call (.memDealloc _) | .call (.tskCreate ..) | .call .tskExit
  | .call .tskYield | .call (.tskGet ..) | .call .tskGettid | .call (.tskLs ..)
  | .call (.mbxCreate _) | .call (.mbxSend ..) | .call (.mbxRecv ..) | .call (.mbxRecvNb ..)
  | .call (.mbxLs ..) | .call (.mbxGet _) | .call (.rtTskSet _) | .call .rtTskSusp
  | .call (.rtTskGet ..) | .resume | .timer .. | .overwrite .. => .isTrue trivial

/-- The calls of tasks that are not real-time tasks and stay so. -/
def Call.plain : Call → Bool
  | .tskCreate .. => true
  | c => c.scheduling

/-- Among tasks that are not real-time tasks an orderly event is tame. -/
theorem NoRt.tame (hrt : NoRt k) (ho : k.Orderly e) : k.Tame e := by
  have hnot : ∀ {p : Prop}, k.cur.realTime = true → p := fun e => by
    rw [show k.cur.realTime = false from hrt k.current] at e
    cases e
  cases e with
  | call c =>
      cases c with
      | tskSetPrio taskId prio => exact ho
      | mbxSend receiverTid buf => exact hnot
      | mbxRecv buf len => exact hnot
      | mbxRecvNb buf len => exact hnot
      | _ => exact trivial
  | _ => exact trivial

/-- The step lemma for tasks that are not real-time tasks. -/
theorem Rest.step_kept (h : Rest k L) (hrt : NoRt k) (hl : k.Legal e)
    (hw : Kernel.Within (Call.plain · = true) e) (ht : k.Tame e) (hs : k.step e = some k') :
    ∃ L', Rest k' L' ∧ NoRt k' ∧ (k.Orderly e → Top k L → Top k' L') := by
  have hkept : ∀ {k' : Kernel}, Kept k k' L →
      ∃ L', Rest k' L' ∧ NoRt k' ∧ (k.Orderly e → Top k L → Top k' L') :=
    fun ⟨L', h1, h2, h3⟩ => ⟨L', h1, h3.noRt hrt, fun _ => h2⟩
  have hcall : ∀ c, e = .call c → Post (k.svcHandler c) fun r =>
      ∃ L', Rest r.1 L' ∧ NoRt r.1 ∧ (k.Orderly e → Top k L → Top r.1 L') := by
    intro c hc
    subst hc
    by_cases hy : c = .tskYield
    · subst hy
      exact Ends.bind h.kTskYield fun _ hr => hkept hr.1.kept
    have h0 : k.current ≠ tidNull := fun e => hy (hl.2 e)
    cases c with
    | tskCreate taskEntry prio stackSize =>
        exact Ends.bind (h.kTskCreate h0 _ _ _) fun _ hr => hkept hr.kept
    | tskYield => exact absurd rfl hy
    | tskSetPrio taskId prio => exact Ends.bind (h.kTskSetPrio h0 ht) fun _ hr => hkept hr.kept
    | mbxCreate size => exact Ends.bind (h.kMbxCreate h0 size) fun _ => hkept
    | mbxSend receiverTid buf => exact Ends.bind (h.kSendMsg h0 ht) fun _ => hkept
    | mbxSendNb receiverTid buf =>
        refine Ends.bind (h.kSendMsgNb h0 _ _) fun r hr => ?_
        obtain ⟨L', h1, h2, h3⟩ := hr
        exact ⟨L', h1, h3.noRt hrt, h2⟩
    | mbxRecv buf len => exact Ends.bind (h.kRecvMsg h0 ht) fun _ => hkept
    | mbxRecvNb buf len => exact Ends.bind (h.kRecvMsgNb h0 ht) fun _ => hkept
    | _ => exact absurd hw (by simp [Kernel.Within, Call.plain, Call.scheduling])
  have hpost : Post (k.exec e) fun r =>
      ∃ L', Rest r.1 L' ∧ NoRt r.1 ∧ (k.Orderly e → Top k L → Top r.1 L') := by
    cases e with
    | call c => exact hcall c rfl
    | resume =>
        unfold Kernel.exec
        cases hp : k.pend k.current with
        | none => exact ⟨L, h, hrt, fun _ => id⟩
        | some p =>
            have h0 := (h.pend k.current (by rw [hp]; simp)).1
            exact Ends.bind (h.resumeRecv h0 hp) fun _ => hkept
    | timer tc pc => exact absurd hw id
    | overwrite t buf => exact absurd hw id
  obtain ⟨r, hx⟩ := Kernel.step_eq_some.mp hs
  exact hpost.of_ok hx

theorem Kernel.within_plain (hw : Kernel.Within (Call.scheduling · = true) e) :
    Kernel.Within (Call.plain · = true) e := by
  cases e with
  | call c =>
      cases c with
      | tskCreate taskEntry prio stackSize => exact rfl
      | _ => exact hw
  | _ => exact hw

/-- **In every orderly run of tasks that are not real-time tasks the highest ready task runs.** -/
theorem priority (hb : Booted k)
    (h : Allowed Kernel.step (fun k e =>
      k.Legal e ∧ Kernel.Within (Call.scheduling · = true) e ∧ k.Orderly e) k es)
    (hr : run Kernel.step k es = some k') : Scheduled k' := by
  obtain ⟨L, hL⟩ := hb.initial
  obtain ⟨L', h1, h2, -⟩ := run_reached (fun k => ∃ L, Rest k L ∧ Top k L ∧ NoRt k)
    (fun _ _ _ ⟨_, h1, h2, h3⟩ hok hs => by
      obtain ⟨hl, hw, ho⟩ := hok
      obtain ⟨L', h4, h5, h6⟩ := h1.step_kept h3 hl (Kernel.within_plain hw) (h3.tame ho) hs
      exact ⟨L', h4, h6 ho h2, h5⟩)
    ⟨L, hL.rest, hL.top, hL.noRt⟩ h hr
  exact h1.scheduled h2

/-- The system tasks step down, and the last of them raises the first boot task. -/
def orderlyEvents : List Event :=
  let hello : Buf := fun i => if i = 0 then 6 else 0
  [.call (.mbxCreate 64), .call (.tskSetPrio 14 medium), .call (.tskSetPrio 15 medium),
    .call (.mbxSendNb 14 hello), .call (.tskSetPrio 13 medium), .call (.tskSetPrio 1 high),
    .call .tskYield]

theorem priority_orderly : ∃ k', reached threeTasks orderlyEvents = some k' ∧ Scheduled k' :=
  have hr : (reached threeTasks orderlyEvents).isSome = true := by decide +kernel
  ⟨_, (Option.some_get hr).symm, priority booted_threeTasks (by decide +kernel)
    (Option.some_get hr).symm⟩

/-- The second of three boot tasks is raised; it sends to itself, receives and yields. -/
def raiseInside : List Event :=
  let hello : Buf := fun i => if i = 0 then 6 else 0
  [.call (.tskSetPrio 14 medium), .call (.tskSetPrio 15 medium), .call (.tskSetPrio 13 medium),
    .call (.tskSetPrio 2 high), .call (.mbxCreate 64), .call (.mbxSend 2 hello),
    .call (.mbxRecvNb (some hello) 64), .call .tskYield]

/-- **A ready task of the highest priority is lost** once it was raised from inside its queue. -/
theorem ready_task_lost : ¬ ∀ (k k' : Kernel) (es : List Event), Booted k →
    Allowed Kernel.step (fun k e => k.Legal e ∧ Kernel.Within (Call.scheduling · = true) e) k es →
    run Kernel.step k es = some k' → Scheduled k' := by
  intro h
  have hr : (reached threeTasks raiseInside).any (fun k => (k.tcb 2).state = .ready ∧
      (k.tcb 2).prio = high ∧ k.members (.ready 1) = []) = true := by decide +kernel
  obtain ⟨k', hk, hlost⟩ := (Option.any_eq_true _ _).mp hr
  obtain ⟨hs, hp, hempty⟩ := of_decide_eq_true hlost
  have hsched := h _ k' raiseInside booted_threeTasks (by decide +kernel) hk
  obtain ⟨q, hq, hmem⟩ := hsched.reachable 2 (by decide) hs
  rw [hp] at hq
  obtain rfl : QId.ready 1 = q := Except.ok.inj hq
  rw [hempty] at hmem
  exact List.not_mem_nil hmem

/-! ## 3. The timer interrupt -/

/-- **In the states of tame runs the handler of the timer interrupt returns if and only if a task is
    suspended and a real-time task that runs is not the only one that could.** -/
theorem tick (hb : Booted k)
    (h : Allowed Kernel.step (fun k e => k.Legal e ∧ k.Tame e ∧ k.FreesOwn e) k es)
    (hr : run Kernel.step k es = some k') (tc pc : Nat) :
    (∃ k'', k'.timer0IrqHandler tc pc = .ok k'') ↔ k'.TickSafe tc pc := by
  obtain ⟨L, hL⟩ := Rest.run hb (h.mono fun _ _ he => ⟨he.1, he.2.1⟩) hr
  have hx := hL.timer0IrqHandler tc pc
  cases ht : k'.timer0IrqHandler tc pc with
  | error f =>
      rw [ht] at hx
      exact ⟨fun ⟨_, e⟩ => (by cases e), fun hsafe => absurd hsafe hx⟩
  | ok k'' =>
      rw [ht] at hx
      exact ⟨fun _ => hx.1, fun _ => ⟨k'', rfl⟩⟩

theorem tick_tame : ∃ k', reached threeTasks tameEvents = some k' ∧
    ((∃ k'', k'.timer0IrqHandler 1 0 = .ok k'') ↔ k'.TickSafe 1 0) :=
  have hr : (reached threeTasks tameEvents).isSome = true := by decide +kernel
  ⟨_, (Option.some_get hr).symm, tick booted_threeTasks (by decide +kernel)
    (Option.some_get hr).symm 1 0⟩

/-- **The first interrupt after the boot finds no suspended task** and follows a NULL pointer. -/
theorem tick_after_boot : ¬ ∀ (k k' : Kernel) (es : List Event) (tc pc : Nat), Booted k →
    Allowed Kernel.step Kernel.Legal k es → run Kernel.step k es = some k' →
    ∃ k'', k'.timer0IrqHandler tc pc = .ok k'' := by
  intro h
  obtain ⟨k'', hk⟩ := h _ _ [] 0 0 booted_threeTasks trivial rfl
  have hf : ((bootKernel threeTasks).timer0IrqHandler 0 0).toOption.isNone = true := by
    decide +kernel
  rw [hk] at hf
  cases hf

end Rtx
