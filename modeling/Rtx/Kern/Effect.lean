/-
  File:      Rtx/Kern/Effect.lean
  Subject:   What `k_tsk_exit` and `k_tsk_set_prio` leave.

  The code of `k_tsk_exit` that reclaims the task stands in the `else` of a test that is always
  true, so no exit reclaims anything (`exit_reclaims`). `k_tsk_set_prio` has its effect in every
  case but one: a task that raises itself gets RTX_OK and keeps its priority (`set_prio`).
-/
import Rtx.Kern.Index
import Rtx.Mem.Trees

namespace Rtx

open Lib

variable {k k' k'' : Kernel} {L : Lists} {t : Tid} {prio : Nat}

/-! ## 1. `k_tsk_exit` -/

/-- A block of IRAM2 is allocated at the address. -/
def Kernel.Holds (k : Kernel) (a : Nat) : Prop :=
  ∃ T n, Represents iram2 T k.ram2 ∧ T.sub n = some .allocated ∧ iram2.addr n = a

/-- The task `t` was reclaimed: it is DORMANT and in no queue, its stack and its mailbox were given
    back, and the task taken by `scheduler` runs. -/
structure Reclaimed (k k' : Kernel) (t : Tid) : Prop where
  dormant : (k'.tcb t).state = .dormant
  queues : ∀ q, t ∉ k'.members q
  stack : ∀ a ∈ (k.tcb t).pspBase, ¬ k'.Holds a
  mailbox : (k'.mailbox (.task t)).active = false
  buffer : (k.mailbox (.task t)).active = true → ¬ k'.Holds (k.ring (.task t)).memoryStart
  running : (k'.tcb k'.current).state = .running

/-- **No exit reclaims its task**: in every state that is reached, the task that exits is not
    DORMANT afterwards. -/
theorem exit_reclaims {es : List Event} (hb : Booted k) (h : Allowed Kernel.step Kernel.Legal k es)
    (hr : Lib.run Kernel.step k es = some k') (hl : k'.Legal (.call .tskExit)) :
    ¬ Reclaimed k' k'.kTskExit k'.current := by
  intro hrec
  have h0 : k'.current ≠ tidNull := fun e => by cases hl.2 e
  obtain ⟨A, hA⟩ := Indexed.run hb h hr
  have hcreated := (hA.kTskExit.links.data k'.current).created h0
  exact hcreated.mp (hA.cur h0) hrec.dormant

theorem exit_reclaims_tame : ∃ k', reached threeTasks tameEvents = some k' ∧
    ¬ Reclaimed k' k'.kTskExit k'.current := by
  have hr : (reached threeTasks tameEvents).any
      (fun k => k.Legal (.call .tskExit)) = true := by decide +kernel
  obtain ⟨k', hk, hc⟩ := (Option.any_eq_true _ _).mp hr
  exact ⟨k', hk, exit_reclaims booted_threeTasks (by decide +kernel) hk (of_decide_eq_true hc)⟩

/-- The first task after the boot exits. -/
theorem exited_not_dormant : ¬ ∀ (k k' : Kernel) (es : List Event), Booted k →
    Allowed Kernel.step Kernel.Legal k es → Lib.run Kernel.step k es = some k' →
    k'.Legal (.call .tskExit) → Reclaimed k' k'.kTskExit k'.current := by
  intro h
  have hr := h _ _ [] booted_threeTasks trivial rfl (by decide +kernel)
  have hne : ((bootKernel threeTasks).kTskExit.tcb (bootKernel threeTasks).current).state ≠
    .dormant := by decide +kernel
  exact hne hr.dormant

/-! ## 2. `k_tsk_set_prio` -/

/-- `t` has the new priority: READY, it is in the ready queue of that priority and in no other
    queue; blocked, it stays so, and no queue changes. -/
structure PrioSet (k k' : Kernel) (t : Tid) (prio : Nat) : Prop where
  field : (k'.tcb t).prio = prio
  ready : (k'.tcb t).state = .ready →
    ∃ q, readyAt (priority2order prio) = .ok q ∧ ∀ q', t ∈ k'.members q' ↔ q' = q
  blocked : (k.tcb t).state = .blkSend ∨ (k.tcb t).state = .blkRecv →
    (k'.tcb t).state = (k.tcb t).state ∧ ∀ q, k'.members q = k.members q

/-- No link is read, and no field but the priority. -/
def Prios (f : Tid → Nat) (k : Kernel) : Prop :=
  k.toTasks.Guarded (fun _ => True) fun u d => d.prio = f u

theorem prios_closed (f : Tid → Nat) :
    Tasks.Closed (fun _ => True) fun (u : Tid) (d : TcbData) => d.prio = f u :=
  fun _ _ _ _ _ => id

theorem Kernel.prios (k : Kernel) : Prios (fun u => (k.tcb u).prio) k :=
  ⟨fun _ _ _ => trivial, fun _ _ _ => trivial, fun _ _ _ => trivial, fun _ _ _ => trivial,
    fun _ => rfl⟩

section Prios

variable {f : Tid → Nat} (h : Prios f k)
include h

theorem Prios.pushHead (t : Tid) (q : QId) : Prios f (k.pushHead t q) :=
  Tasks.Guarded.pushHead (prios_closed f) h trivial

theorem Prios.pushTail (t : Tid) (q : QId) : Post (k.pushTail t q) (Prios f) :=
  Ends.bind (Tasks.Guarded.pushTail (prios_closed f) h trivial).post fun _ hs => hs

theorem Prios.popHead (q : QId) : Prios f (k.popHead q) :=
  (Tasks.Guarded.popHead (prios_closed f) h).1

theorem Prios.popTask (t : Tid) (q : QId) : Post (k.popTask t q) (Prios f) :=
  Ends.bind (Tasks.Guarded.popTask (prios_closed f) h).post fun _ hs => hs

theorem Prios.setTaskState (t : Tid) (v : TaskState) : Prios f (k.setTaskState t v) :=
  Tasks.Guarded.modify (f := fun d => { d with state := v }) h (h.data t)

end Prios

theorem Kernel.setPrio_prio (k : Kernel) (t : Tid) (prio : Nat) :
    ((k.setPrio t prio).tcb t).prio = prio :=
  congrArg TcbData.prio ((congrFun (k.data_modifyTcb t _) t).trans (Function.update_self _ _ _))

/-- No queue looks at the priorities. -/
theorem Kernel.setPrio_members (k : Kernel) (t : Tid) (prio : Nat) (q : QId) :
    (k.setPrio t prio).members q = k.members q := by
  unfold Kernel.members
  rw [show (fun u => ((k.setPrio t prio).tcb u).next) = fun u => (k.tcb u).next from
    funext fun u => Tasks.modify_next k.toTasks t u fun d => { d with prio }]
  rfl

/-- A task raised above its caller runs at the new priority. -/
theorem Kernel.promote_prio (k : Kernel) (t : Tid) (prio : Nat) :
    Post (k.promote t prio) fun k' => (k'.tcb t).prio = prio ∧ (k'.tcb t).state = .running := by
  have h1 := (k.setPrio t prio).prios
  unfold Kernel.promote
  refine Ends.bind Ends.trivial fun q _ => ?_
  refine Ends.bind (Prios.popTask (k := (k.setPrio t prio).setCurrent t) h1 t q) fun k₁ h2 => ?_
  refine Ends.bind Ends.trivial fun q' _ => ?_
  have h3 := (h2.pushHead (k.setPrio t prio).current q').setTaskState t .running
  refine ⟨(h3.data t).trans (k.setPrio_prio t prio), ?_⟩
  exact congrArg TcbData.state ((congrFun (Kernel.data_setTaskState _ t _) t).trans
    (Function.update_self _ _ _))

/-- A caller that lowers itself has the new priority, also when it is switched out. -/
theorem Kernel.demoteSelf_prio (k : Kernel) (prio : Nat) :
    Post (k.demoteSelf prio) fun k' => (k'.tcb k.current).prio = prio := by
  have h1 := (k.setPrio k.current prio).prios
  have hp := k.setPrio_prio k.current prio
  unfold Kernel.demoteSelf
  refine Ends.ite (fun _ => ?_) fun _ => hp
  refine Ends.bind Ends.trivial fun q _ => ?_
  refine Ends.bind Ends.trivial fun q' _ => ?_
  have h2 := Prios.popHead (k := (k.setPrio k.current prio).setCurrent k.highestTask) h1 q
  refine Ends.bind (h2.pushTail (k.setPrio k.current prio).current q') fun k₁ h3 => ?_
  exact ((h3.setTaskState _ _).data k.current).trans hp

/-- A task moved to another ready queue has the new priority. -/
theorem Kernel.requeue_prio (k : Kernel) (t : Tid) (prio : Nat) :
    Post (k.requeue t prio) fun k' => (k'.tcb t).prio = prio := by
  have h1 := (k.setPrio t prio).prios
  unfold Kernel.requeue
  refine Ends.bind Ends.trivial fun q _ => ?_
  refine Ends.bind (h1.popTask t q) fun k₁ h2 => ?_
  refine Ends.bind Ends.trivial fun q' _ => ?_
  exact (h2.pushTail t q').imp fun k₂ h3 => (h3.data t).trans (k.setPrio_prio t prio)

section Outcomes

variable (h : Rest k L) (h0 : k.current ≠ tidNull)
include h h0

theorem Rest.tid_iff : k.cur.tid = t.val ↔ t = k.current := by
  have htid := (h.task k.current).tid (by rw [h.current h0]; simp)
  rw [show k.cur.tid = k.current.val from htid, Fin.val_inj, eq_comm]

/-- The running task is not blocked. -/
theorem Rest.current_unblocked :
    ¬ ((k.tcb k.current).state = .blkRecv ∨ (k.tcb k.current).state = .blkSend) := by
  rw [show (k.tcb k.current).state = .running from h.current h0]
  simp

/-- Nothing happens when a task would raise itself. -/
theorem Rest.changePrio_self (hprio : prio < k.cur.prio) :
    k.changePrio k.current k.current.val prio = .ok k := by
  have hrt : (k.tcb k.current).realTime = false := by
    by_contra hne
    have := (h.task k.current).realTime (Bool.not_eq_false _ ▸ hne)
    rw [show k.cur.prio = prioRt from this] at hprio
    exact absurd hprio (Nat.not_lt_zero _)
  have htid : k.cur.tid = k.current.val := (h.tid_iff h0).mpr rfl
  have hne : ¬ (k.tcb k.current).prio = prio := fun e => absurd (e ▸ hprio) (lt_irrefl _)
  unfold Kernel.changePrio
  simp only [h.current_unblocked h0, if_false, hrt, Bool.false_eq_true, hne, htid, ne_eq,
    not_true_eq_false, and_false, if_true, hprio.not_gt]
  rfl

omit h0 in
/-- A blocked task only gets the priority. -/
theorem Rest.changePrio_blocked {id : Nat}
    (hb : (k.tcb t).state = .blkRecv ∨ (k.tcb t).state = .blkSend) :
    k.changePrio t id prio = .ok (k.setPrio t prio) := by
  have hdt := (congrFun (k.data_modifyTcb t fun d => { d with prio }) t).trans
    (Function.update_self _ _ _)
  have hrt : ((k.setPrio t prio).tcb t).realTime = false :=
    (congrArg TcbData.realTime hdt).trans ((h.task t).blocked hb.symm)
  have hp := k.setPrio_prio t prio
  unfold Kernel.changePrio
  simp only [hb, if_true, hrt, Bool.false_eq_true, if_false, hp]
  rfl

/-- In every other case the task has the priority afterwards. -/
theorem Rest.changePrio_field (hself : ¬ (t = k.current ∧ prio < k.cur.prio)) :
    Post (k.changePrio t t.val prio) fun k' => (k'.tcb t).prio = prio := by
  have htid := h.tid_iff h0 (t := t)
  by_cases hb : (k.tcb t).state = .blkRecv ∨ (k.tcb t).state = .blkSend
  · rw [h.changePrio_blocked hb]
    exact k.setPrio_prio t prio
  unfold Kernel.changePrio
  simp only [hb, if_false]
  refine Ends.ite (fun _ => k.setPrio_prio t prio) fun _ => ?_
  refine Ends.ite (fun e => e) fun hne => ?_
  refine Ends.ite (fun _ => (k.promote_prio t prio).imp fun _ => And.left) fun _ => ?_
  refine Ends.ite (fun hc => ?_) fun _ => k.requeue_prio t prio
  obtain rfl := htid.mp hc
  refine Ends.ite (fun _ => k.demoteSelf_prio prio) fun hle => ?_
  exact absurd ⟨rfl, lt_of_le_of_ne (not_lt.mp hle) (Ne.symm hne)⟩ hself

/-- A READY task raised from inside its queue runs. -/
theorem Rest.changePrio_inside (hin : k.PromotesInside t.val prio) :
    Post (k.changePrio t t.val prio) fun k' => (k'.tcb t).state = .running := by
  obtain ⟨t', ht', hrt, hst, -, -, hne, hlt, -⟩ := hin
  obtain rfl := Fin.val_inj.mp ht'
  have hct : k.cur.tid ≠ t'.val := fun e => by
    have := h.current h0
    rw [← (h.tid_iff h0).mp e] at this
    rw [show (k.data t').state = .ready from hst] at this
    cases this
  have hb : ¬ ((k.tcb t').state = .blkRecv ∨ (k.tcb t').state = .blkSend) := by
    rw [hst]
    simp
  unfold Kernel.changePrio
  simp only [hb, if_false, hrt, Bool.false_eq_true]
  rw [if_neg (fun e => hne e.symm), if_pos ⟨hlt, hct⟩]
  exact (k.promote_prio t' prio).imp fun _ => And.right

end Outcomes

/-- `k_tsk_set_prio` returns RTX_OK only if it accepts its arguments. -/
theorem kTskSetPrio_ok {taskId : Nat} (h : k.kTskSetPrio taskId prio = .ok (k', rtxOk)) :
    ∃ t : Tid, t.val = taskId ∧ (k.tcb t).prio ≠ prioNull ∧
      k.changePrio t t.val prio = .ok k' := by
  obtain ⟨he, -⟩ | ⟨t, ht, hacc, hk⟩ := (k.kTskSetPrio_spec taskId prio).of_ok h
  · exact absurd he.symm rtxErr_ne_rtxOk
  · exact ⟨t, ht, hacc.below, hk⟩

/-- **`k_tsk_set_prio` takes effect**, in every state reached by tame steps, unless a task raises
    itself. -/
theorem set_prio {es : List Event} {taskId : Nat} (hb : Booted k)
    (h : Allowed Kernel.step (fun k e => k.Legal e ∧ k.Tame e) k es)
    (hr : Lib.run Kernel.step k es = some k') (hl : k'.Legal (.call (.tskSetPrio taskId prio)))
    (hok : k'.kTskSetPrio taskId prio = .ok (k'', rtxOk)) (ht : t.val = taskId) :
    PrioSet k' k'' t prio ↔ ¬ (t = k'.current ∧ prio < k'.cur.prio) := by
  have h0 : k'.current ≠ tidNull := fun e => by cases hl.2 e
  obtain ⟨L, hL⟩ := Rest.run hb h hr
  obtain ⟨t', ht', hne, hk⟩ := kTskSetPrio_ok hok
  obtain rfl : t' = t := Fin.val_inj.mp (ht'.trans ht.symm)
  constructor
  · rintro hset ⟨rfl, hlt⟩
    rw [hL.changePrio_self h0 hlt] at hk
    obtain rfl := Except.ok.inj hk
    exact absurd hset.field (ne_of_gt hlt)
  · intro hself
    have hfield := (hL.changePrio_field h0 hself).of_ok hk
    refine ⟨hfield, fun hready => ?_, fun hblocked => ?_⟩
    · by_cases hin : k'.PromotesInside t'.val prio
      · rw [(hL.changePrio_inside h0 hin).of_ok hk] at hready
        cases hready
      · -- the kernel is at rest, so a READY task is in the queue of its priority
        obtain ⟨L', hL', -⟩ := (hL.kTskSetPrio h0 (ht ▸ hin)).of_ok hok
        obtain ⟨q, hq, hmem⟩ := (hL'.exclusive.ready t' fun e =>
          hne ((hL.task t').null e).1).mp hready
        rw [hfield] at hq
        refine ⟨q, hq, fun q' => ⟨fun hm => hL'.exclusive.one _ _ _ hm hmem, fun e => e ▸ hmem⟩⟩
    · rw [hL.changePrio_blocked hblocked.symm] at hk
      obtain rfl := Except.ok.inj hk
      have hdt := (congrFun (k'.data_modifyTcb t' fun d => { d with prio }) t').trans
        (Function.update_self _ _ _)
      have hst := congrArg TcbData.state hdt
      exact ⟨hst, k'.setPrio_members t' prio⟩

/-- The console lets the other system tasks go below itself. -/
def lowered : List Event :=
  [.call (.tskSetPrio 15 low), .call (.tskSetPrio 13 low), .call (.tskSetPrio 14 medium)]

theorem set_prio_lowered : ∃ k' k'', reached threeTasks lowered = some k' ∧
    k'.kTskSetPrio 1 low = .ok (k'', rtxOk) ∧
    (PrioSet k' k'' 1 low ↔ ¬ ((1 : Tid) = k'.current ∧ low < k'.cur.prio)) := by
  have hr : (reached threeTasks lowered).any (fun k =>
      k.Legal (.call (.tskSetPrio 1 low)) ∧
        (k.kTskSetPrio 1 low).toOption.any fun r => r.2 = rtxOk) = true := by decide +kernel
  obtain ⟨k', hk, hc⟩ := (Option.any_eq_true _ _).mp hr
  obtain ⟨hl, hok⟩ := of_decide_eq_true hc
  obtain ⟨⟨k'', r⟩, hx, hc⟩ := (Option.any_eq_true _ _).mp hok
  obtain rfl := of_decide_eq_true hc
  have hx := toOption_eq_some.mp hx
  exact ⟨k', k'', hk, hx, set_prio booted_threeTasks (by decide +kernel) hk hl hx rfl⟩

/-- **A task that raises itself** gets RTX_OK and keeps its priority. -/
theorem self_not_raised : ¬ ∀ (k k' k'' : Kernel) (es : List Event) (t : Tid) (prio : Nat),
    Booted k → Allowed Kernel.step (fun k e => k.Legal e ∧ k.Tame e) k es →
    Lib.run Kernel.step k es = some k' → k'.Legal (.call (.tskSetPrio t.val prio)) →
    k'.kTskSetPrio t.val prio = .ok (k'', rtxOk) → PrioSet k' k'' t prio := by
  intro h
  have hr : (reached threeTasks lowered).any (fun k =>
      k.Legal (.call (.tskSetPrio 14 high)) ∧ (k.kTskSetPrio 14 high).toOption.any
        fun r => r.2 = rtxOk ∧ (r.1.tcb 14).prio = medium) = true := by decide +kernel
  obtain ⟨k', hk, hc⟩ := (Option.any_eq_true _ _).mp hr
  obtain ⟨hl, hok⟩ := of_decide_eq_true hc
  obtain ⟨⟨k'', r⟩, hx, hc⟩ := (Option.any_eq_true _ _).mp hok
  obtain ⟨rfl, hp⟩ := of_decide_eq_true hc
  have hset := h _ _ _ _ 14 high booted_threeTasks (by decide +kernel) hk hl
    (toOption_eq_some.mp hx)
  exact absurd (hset.field.symm.trans hp) (by decide)

end Rtx
