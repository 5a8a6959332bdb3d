/-
  File:      Rtx/Kern/Index.lean
  Subject:   The indices of `ready_queue` in the system calls.

  `Indexed A k`, with `A` the tasks that were created: every TCB but that of the null task has the
  priority of a ready queue, and every queue leads to tasks of `A`. Every event keeps it, also in
  the runs that break the lists. Under it the calls index `ready_queue` inside the array, with one
  exception: `k_tsk_create` accepts PRIO_NULL and takes it for the index 5
  (`Kernel.CreatesNull`).
-/
import Rtx.Kern.Faults
import Rtx.Kern.Scheduling

namespace Rtx

open Lib

variable {k k' : Kernel} {t : Tid} {A : Tid → Prop}

/-! ## 1. The invariant -/

/-- What every TCB satisfies. The null task is below all ready queues and never waits for a
    message. -/
structure Ranked (A : Tid → Prop) (t : Tid) (d : TcbData) : Prop where
  prio : t ≠ tidNull → ∃ i : Fin 5, d.prio = order2priority i.val
  null : t = tidNull → d.prio = prioNull ∧ d.realTime = false ∧ d.state ≠ .blkRecv
  created : t ≠ tidNull → (A t ↔ d.state ≠ .dormant)

/-- Every priority that can come to an index is that of a ready queue. -/
structure Indexed (A : Tid → Prop) (k : Kernel) : Prop where
  links : k.toTasks.Guarded A (Ranked A)
  null : ¬ A tidNull
  current : k.current = tidNull ∨ A k.current
  pend : k.pend tidNull = none

theorem ranked_closed (h : ¬ A tidNull) : Tasks.Closed A (Ranked A) := fun t d v ht hv hd => by
  refine ⟨hd.prio, fun e => absurd (e ▸ ht) h, fun _ => ⟨fun _ => ?_, fun _ => ht⟩⟩
  rcases hv with rfl | rfl <;> simp

/-- Every fault but an index outside `ready_queue`. -/
def NoIndex (e : Fault) : Prop := e ≠ .readyIndex

theorem Tasks.QueueFault.noIndex {e : Fault} (h : Tasks.QueueFault e) : NoIndex e := by
  rcases h with rfl | rfl <;> exact fun h => (by cases h)

/-! ## 2. The operations -/

section Operations

variable (h : Indexed A k)
include h

theorem Indexed.frame (ht : k'.toTasks.tcb = k.toTasks.tcb) (hq : k'.queue = k.queue)
    (hc : k'.current = k.current) (hp : k'.pend = k.pend) : Indexed A k' :=
  ⟨h.links.frame ht hq, h.null, hc ▸ h.current, hp ▸ h.pend⟩

theorem Indexed.setErrno (e : Errno) : Indexed A (k.setErrno e) := h.frame rfl rfl rfl rfl

theorem Indexed.setCurrent (ht : t = tidNull ∨ A t) : Indexed A (k.setCurrent t) :=
  ⟨h.links, h.null, ht, h.pend⟩

theorem Indexed.ne_null (ht : A t) : t ≠ tidNull := fun e => h.null (e ▸ ht)

theorem Indexed.cur (h0 : k.current ≠ tidNull) : A k.current := h.current.resolve_left h0

/-- The index of a created task. -/
theorem Indexed.readyAt (ht : A t) :
    ∃ i, readyAt (priority2order (k.tcb t).prio) = .ok (.ready i) := by
  obtain ⟨i, hi⟩ := (h.links.data t).prio (h.ne_null ht)
  exact ⟨i, readyAt_priority.mpr hi⟩

theorem Indexed.modifyTcb {f : TcbData → TcbData} (hf : Ranked A t (f (k.data t))) :
    Indexed A (k.modifyTcb t f) := ⟨h.links.modify hf, h.null, h.current, h.pend⟩

/-- Any new content of a created task that has a ready queue and is not DORMANT. -/
theorem Indexed.modifyTask (ht : A t) {f : TcbData → TcbData}
    (hp : ∃ i : Fin 5, (f (k.data t)).prio = order2priority i.val)
    (hs : (f (k.data t)).state ≠ .dormant) : Indexed A (k.modifyTcb t f) :=
  h.modifyTcb ⟨fun _ => hp, fun e => absurd e (h.ne_null ht), fun _ => ⟨fun _ => hs, fun _ => ht⟩⟩

theorem Indexed.setTaskState (ht : A t) {v : TaskState} (hv : v ≠ .dormant) :
    Indexed A (k.setTaskState t v) :=
  h.modifyTask (f := fun d => { d with state := v }) ht ((h.links.data t).prio (h.ne_null ht)) hv

/-- The null task too can be ready or running. -/
theorem Indexed.setRunnable (ht : t = tidNull ∨ A t) {v : TaskState}
    (hv : v = .ready ∨ v = .running) : Indexed A (k.setTaskState t v) := by
  have hv' : v ≠ .dormant ∧ v ≠ .blkRecv := by rcases hv with rfl | rfl <;> simp
  rcases ht with rfl | ht
  · obtain ⟨h1, h2, -⟩ := (h.links.data tidNull).null rfl
    exact h.modifyTcb (f := fun d => { d with state := v }) ⟨fun e => absurd rfl e,
      fun _ => ⟨h1, h2, hv'.2⟩, fun e => absurd rfl e⟩
  · exact h.setTaskState ht hv'.1

theorem Indexed.pushHead (ht : A t) (q : QId) : Indexed A (k.pushHead t q) :=
  ⟨h.links.pushHead (ranked_closed h.null) ht, h.null, h.current, h.pend⟩

theorem Indexed.pushTail (ht : A t) (q : QId) : Ends (k.pushTail t q) NoIndex (Indexed A) :=
  Ends.bind ((h.links.pushTail (ranked_closed h.null) ht).mono (fun _ => Tasks.QueueFault.noIndex)
    fun _ => id) fun _ hs => ⟨hs, h.null, h.current, h.pend⟩

theorem Indexed.popHead (q : QId) : Indexed A (k.popHead q) :=
  ⟨(h.links.popHead (ranked_closed h.null)).1, h.null, h.current, h.pend⟩

theorem Indexed.popTask (t : Tid) (q : QId) : Ends (k.popTask t q) NoIndex (Indexed A) :=
  Ends.bind ((h.links.popTask (ranked_closed h.null)).mono (fun _ => Tasks.QueueFault.noIndex)
    fun _ => id) fun _ hs => ⟨hs, h.null, h.current, h.pend⟩

theorem Indexed.pushBuffer (m : MbxId) (buf : Buf) :
    Ends (k.pushBuffer m buf) NoIndex (Indexed A) := by
  refine (k.pushBuffer_ends m buf).mono (fun e he => ?_) fun k' hk => ?_
  · exact he ▸ fun e => (by cases e)
  · obtain ⟨mb, bytes, rfl⟩ := hk
    exact h.frame rfl rfl rfl rfl

theorem Indexed.popBuffer (m : MbxId) (buf : Buf) (len : Nat) :
    Ends (k.popBuffer m buf len) NoIndex fun r => Indexed A r.1 := by
  refine (k.popBuffer_ends m buf len).mono (fun e he => ?_) fun r hr => ?_
  · exact he ▸ fun e => (by cases e)
  · obtain ⟨mb, hr⟩ := hr
    rw [hr]
    exact h.frame rfl rfl rfl rfl

omit h in
theorem Kernel.scheduler_current (k : Kernel) : k.scheduler.1.current = k.current := by
  unfold Kernel.scheduler
  split
  · rfl
  · rfl

/-- The scheduler takes a task from a ready queue, or it stays with the null task. -/
theorem Indexed.scheduler :
    Indexed A k.scheduler.1 ∧ (k.scheduler.2 = tidNull ∨ A k.scheduler.2) := by
  unfold Kernel.scheduler
  split
  · exact ⟨h, Or.inl rfl⟩
  next i _ =>
    refine ⟨h.popHead _, ?_⟩
    cases hh : (k.queue (.ready i)).head with
    | none => exact Or.inl rfl
    | some t => exact Or.inr (h.links.head _ t hh)

theorem Indexed.switchTo (ht : t = tidNull ∨ A t) : Indexed A (k.switchTo t) :=
  (h.setCurrent ht).setRunnable ht (Or.inr rfl)

theorem Indexed.runScheduled : Indexed A k.runScheduled := h.scheduler.1.switchTo h.scheduler.2

theorem Indexed.kTskRunNew : Indexed A k.kTskRunNew.1 := by
  unfold Kernel.kTskRunNew
  split
  · exact h
  have h1 := h.scheduler.1.setCurrent h.scheduler.2
  have h2 := h1.setRunnable h.scheduler.2 (Or.inr rfl)
  dsimp only
  split
  · split
    · exact h2.setRunnable h.current (Or.inl rfl)
    · exact h2
  · exact h1

/-- `push_head(gp_current_task, &ready_queue[..])` and `k_tsk_run_new()`. -/
theorem Indexed.giveWay (h0 : k.current ≠ tidNull) : Ends k.giveWay NoIndex (Indexed A) := by
  obtain ⟨i, hi⟩ := h.readyAt (h.cur h0)
  exact Ends.bind_ok hi (h.pushHead (h.cur h0) _).kTskRunNew

end Operations

/-! ## 3. The calls on tasks -/

/-- The pool has a block for the stack of a new task. -/
def Kernel.hasMemory (k : Kernel) (stackSize : Nat) : Bool :=
  match log2 stackSize with
  | none => false
  | some power =>
      match k.mpoolAlloc mpidIram2 (power2 power) with
      | .ok (_, some _) => true
      | _ => false

/-- `k_tsk_create` with PRIO_NULL, where there is a slot and memory for the task. -/
def Kernel.CreatesNull (k : Kernel) (prio stackSize : Nat) : Prop :=
  prio = prioNull ∧ ¬ (k.dormantSlot = 13 ∧ (k.tcb k.dormantSlot).state ≠ .dormant) ∧
    k.hasMemory (if stackSize < procStackSize then procStackSize else stackSize) = true

instance (k : Kernel) (prio stackSize : Nat) : Decidable (k.CreatesNull prio stackSize) :=
  inferInstanceAs (Decidable (_ ∧ _ ∧ _))

theorem kTskCreateNew_ends (k : Kernel) (info : TaskInit) (t : Tid) :
    Ends (k.kTskCreateNew info t) (fun e => NoIndex e ∧ k.hasMemory info.uStackSize = false)
      fun r => r.2 = rtxOk ↔ k.hasMemory info.uStackSize = true := by
  unfold Kernel.kTskCreateNew Kernel.hasMemory
  cases log2 info.uStackSize with
  | none => exact ⟨fun e => (by cases e), rfl⟩
  | some power =>
      dsimp only
      have h1 := k.mpoolAlloc_ends mpidIram2 (power2 power)
      cases ha : k.mpoolAlloc mpidIram2 (power2 power) with
      | error e =>
          rw [ha] at h1
          obtain rfl : e = .pool := h1
          exact ⟨fun e => (by cases e), rfl⟩
      | ok x =>
          obtain ⟨k₁, ptr⟩ := x
          cases ptr with
          | none => exact ⟨fun e => absurd e rtxErr_ne_rtxOk, fun e => (by cases e)⟩
          | some a => exact ⟨fun _ => rfl, fun _ => rfl⟩

section Calls

variable (h : Indexed A k)
include h

theorem Indexed.kTskYield : Ends k.kTskYield NoIndex fun r => Indexed A r.1 := by
  unfold Kernel.kTskYield
  refine Ends.ite (fun _ => h) fun _ => ?_
  refine Ends.ite (fun _ => h) fun _ => ?_
  refine Ends.ite (fun _ => h) fun _ => ?_
  refine Ends.ite (fun hp => ?_) fun _ => h.kTskRunNew
  have hc := h.cur fun e => hp ((h.links.data _).null e).1
  obtain ⟨i, hi⟩ := h.readyAt hc
  exact Ends.bind_ok hi (Ends.bind (h.pushTail hc _) fun _ h1 => h1.kTskRunNew)

/-- A TCB that is filled in becomes one of the created tasks. -/
theorem Indexed.create {f : TcbData → TcbData} (ht : t ≠ tidNull)
    (hp : ∃ i : Fin 5, (f (k.data t)).prio = order2priority i.val)
    (hs : (f (k.data t)).state ≠ .dormant) :
    Indexed (fun u => A u ∨ u = t) (k.modifyTcb t f) := by
  have hlead : ∀ {v : Option Tid}, Tasks.Leads A v → Tasks.Leads (fun u => A u ∨ u = t) v :=
    fun hv u e => Or.inl (hv u e)
  refine ⟨⟨fun u => ?_, fun u => ?_, fun q => hlead (h.links.head q), fun q => hlead
    (h.links.tail q), fun u => ?_⟩, fun e => e.elim h.null fun e => ht e.symm,
    h.current.imp id Or.inl, h.pend⟩
  · exact hlead ((congrArg (Tasks.Leads A) (k.toTasks.modify_next t u f)).mpr (h.links.next u))
  · exact hlead ((congrArg (Tasks.Leads A) (k.toTasks.modify_prev t u f)).mpr (h.links.prev u))
  rw [show Tasks.data (k.modifyTcb t f).toTasks u = _ from congrFun (k.data_modifyTcb t f) u,
    Function.update_apply]
  by_cases e : u = t
  · rw [if_pos e]
    exact ⟨fun _ => hp, fun e' => absurd (e.symm.trans e') ht,
      fun _ => ⟨fun _ => hs, fun _ => Or.inr e⟩⟩
  · rw [if_neg e]
    have hd := h.links.data u
    exact ⟨hd.prio, hd.null, fun h0 => ⟨fun h1 => (hd.created h0).mp (h1.resolve_right e),
      fun h1 => Or.inl ((hd.created h0).mpr h1)⟩⟩

theorem Indexed.startNew (h0 : k.current ≠ tidNull) (ht : A t) {order : Int} {i : Fin 5}
    (hq : Rtx.readyAt order = .ok (.ready i)) : Ends (k.startNew t order) NoIndex (Indexed A) := by
  unfold Kernel.startNew
  refine Ends.ite (fun _ => ?_) fun _ => Ends.bind_ok hq (h.pushTail ht _)
  have h1 := h.switchTo (Or.inr ht)
  obtain ⟨j, hj⟩ := h1.readyAt (h.cur h0)
  exact Ends.bind_ok hj (h1.pushHead (h.cur h0) _)

/-- `k_tsk_create_new` fails without memory, or it fills in the TCB. -/
theorem Indexed.createNew (info : TaskInit) (ht : t ≠ tidNull) :
    Ends (k.kTskCreateNew info t) (fun e => NoIndex e ∧ k.hasMemory info.uStackSize = false)
      fun r => r.1.current = k.current ∧
        (k.hasMemory info.uStackSize = false ∧ r.2 = rtxErr ∧ Indexed A r.1 ∨
          k.hasMemory info.uStackSize = true ∧ r.2 = rtxOk ∧
          (∃ a size, r.1.data = Function.update k.data t (info.tcb t a size)) ∧
          ((∃ i : Fin 5, info.prio = order2priority i.val) →
            Indexed (fun u => A u ∨ u = t) r.1)) := by
  refine ((kTskCreateNew_spec k info t).and (kTskCreateNew_ends k info t)).mono
    (fun _ => And.right) fun r hr => ?_
  obtain ⟨k', x⟩ := r
  obtain ⟨⟨power, k₁, ptr, -, hal, hr⟩, hmem⟩ := hr
  obtain ⟨m, -, rfl⟩ := mpoolAlloc_eq_ok hal
  obtain ⟨-, rfl, rfl⟩ | ⟨a, -, rfl, rfl⟩ := hr
  · refine ⟨rfl, Or.inl ⟨Bool.eq_false_iff.mpr fun e => absurd (hmem.mpr e) rtxErr_ne_rtxOk, rfl,
      ?_⟩⟩
    have hd := h.links.data t
    exact (h.modifyTcb (f := fun d => { d with pspBase := none })
      ⟨hd.prio, hd.null, hd.created⟩).frame rfl rfl rfl rfl
  · refine ⟨rfl, Or.inr ⟨hmem.mp rfl, rfl, ⟨a, power2 power, ?_⟩, fun hp => ?_⟩⟩
    · exact k.data_modifyTcb t fun _ => info.tcb t a (power2 power)
    · exact (h.create (f := fun _ => info.tcb t a (power2 power)) ht hp
        (by simp [TaskInit.tcb])).frame rfl rfl rfl rfl

/-- **`k_tsk_create`** leaves the array exactly when it gives a task PRIO_NULL. -/
theorem Indexed.kTskCreate (h0 : k.current ≠ tidNull) (taskEntry prio stackSize : Nat) :
    Ends (k.kTskCreate taskEntry prio stackSize)
      (fun e => e = .readyIndex ↔ k.CreatesNull prio stackSize)
      fun r => ¬ k.CreatesNull prio stackSize ∧ ∃ A', Indexed A' r.1 := by
  unfold Kernel.kTskCreate
  refine Ends.ite (fun hslot => ⟨fun hc => hc.2.1 hslot, A, h.setErrno _⟩) fun hslot => ?_
  refine Ends.ite (fun hprio => ⟨fun hc => ?_, A, h.setErrno _⟩) fun hprio => ?_
  · rw [hc.1] at hprio
    exact absurd hprio (by decide)
  set size := if stackSize < procStackSize then procStackSize else stackSize
  rw [ends_bind]
  refine (h.createNew ⟨taskEntry, size, prio, 0⟩ (dormantSlot_ne k)).mono (fun e he => ?_)
    fun r hr => ?_
  · refine ⟨fun e' => absurd e' he.1, fun hc => ?_⟩
    have := he.2.symm.trans hc.2.2
    cases this
  obtain ⟨k', r⟩ := r
  obtain ⟨hcur, ⟨hmem, rfl, h1⟩ | ⟨hmem, rfl, ⟨a, size', hd⟩, h1⟩⟩ := hr
  · refine Ends.ite (fun _ => ⟨fun hc => ?_, A, h1⟩) fun he => absurd rfl he
    have := hmem.symm.trans hc.2.2
    cases this
  refine Ends.ite (fun he => absurd he (by decide)) fun _ => ?_
  rcases priority2order_cases prio with hp | rfl | hp
  · exact absurd hp hprio
  · -- the null priority is below that of the caller
    rw [startNew_null]
    · exact ⟨fun _ => ⟨rfl, hslot, hmem⟩, fun _ => rfl⟩
    intro hlt
    have hcur' : k'.current = k.current := hcur
    have hd' : k'.data = _ := hd
    rw [hcur', hd', Function.update_self, Function.update_apply] at hlt
    split at hlt
    · exact lt_irrefl _ hlt
    · obtain ⟨c, hc⟩ := (h.links.data k.current).prio h0
      exact (order2priority_lt_null c).not_gt (hlt.trans_eq hc)
  · obtain ⟨i, hi⟩ := id hp
    have hnot : ¬ k.CreatesNull prio stackSize := fun hc =>
      (order2priority_lt_null i).ne (hi.symm.trans hc.1)
    refine Ends.bind (((h1 hp).startNew (hcur.trans_ne h0) (Or.inr rfl)
      (readyAt_priority.mpr hi)).mono (fun e he => ⟨fun e' => absurd e' he, fun hc =>
        absurd hc hnot⟩) fun _ => id) fun k' hk' => ⟨hnot, _, hk'⟩

theorem Indexed.setPrio (ht : A t) {prio : Nat} (hp : ∃ i : Fin 5, prio = order2priority i.val) :
    Indexed A (k.setPrio t prio) :=
  h.modifyTask ht hp (((h.links.data t).created (h.ne_null ht)).mp ht)

/-- The task that `k_tsk_set_prio` makes way for is the null task or a created one. -/
theorem Indexed.highestTask : k.highestTask = tidNull ∨ A k.highestTask := by
  unfold Kernel.highestTask
  split
  · exact Or.inl rfl
  next i _ =>
    cases hh : (k.queue (.ready i)).head with
    | none => exact Or.inl rfl
    | some t => exact Or.inr (h.links.head _ t hh)

section SetPrio

variable {prio : Nat} (hp : ∃ i : Fin 5, prio = order2priority i.val)
include hp

theorem Indexed.promote (h0 : k.current ≠ tidNull) (ht : A t) :
    Ends (k.promote t prio) NoIndex (Indexed A) := by
  unfold Kernel.promote
  obtain ⟨i, hi⟩ := h.readyAt ht
  refine Ends.bind_ok hi ?_
  refine Ends.bind (((h.setPrio ht hp).setCurrent (Or.inr ht)).popTask t _) fun k₁ h1 => ?_
  obtain ⟨j, hj⟩ := h1.readyAt (h.cur h0)
  exact Ends.bind_ok hj ((h1.pushHead (h.cur h0) _).setRunnable (Or.inr ht) (Or.inr rfl))

theorem Indexed.demoteSelf (h0 : k.current ≠ tidNull) :
    Ends (k.demoteSelf prio) NoIndex (Indexed A) := by
  unfold Kernel.demoteSelf
  have h1 := h.setPrio (h.cur h0) hp
  refine Ends.ite (fun hle => ?_) fun _ => h1
  have hu : A k.highestTask := by
    refine h.highestTask.resolve_left fun e => ?_
    -- the null task is below the new priority
    obtain ⟨i, rfl⟩ := hp
    rw [e] at hle
    have hnull : ((k.setPrio k.current (order2priority i.val)).tcb tidNull).prio = prioNull :=
      ((h1.links.data tidNull).null rfl).1
    rw [hnull] at hle
    exact absurd hle (not_le.mpr (order2priority_lt_null i))
  have h2 := h1.setCurrent (Or.inr hu)
  obtain ⟨i, hi⟩ := h2.readyAt hu
  obtain ⟨j, hj⟩ := hp
  refine Ends.bind_ok hi (Ends.bind_ok (readyAt_priority.mpr hj) ?_)
  exact Ends.bind ((h2.popHead _).pushTail (h.cur h0) _) fun k₁ h3 =>
    h3.setRunnable (Or.inr hu) (Or.inr rfl)

theorem Indexed.requeue (ht : A t) : Ends (k.requeue t prio) NoIndex (Indexed A) := by
  unfold Kernel.requeue
  obtain ⟨i, hi⟩ := h.readyAt ht
  obtain ⟨j, hj⟩ := id hp
  refine Ends.bind_ok hi (Ends.bind ((h.setPrio ht hp).popTask t _) fun k₁ h1 => ?_)
  exact Ends.bind_ok (readyAt_priority.mpr hj) (h1.pushTail ht _)

theorem Indexed.changePrio (h0 : k.current ≠ tidNull) (ht : A t) (taskId : Nat) :
    Ends (k.changePrio t taskId prio) NoIndex (Indexed A) := by
  unfold Kernel.changePrio
  set k₁ := if (k.tcb t).state = .blkRecv ∨ (k.tcb t).state = .blkSend then k.setPrio t prio else k
    with hk₁
  have h1 : Indexed A k₁ := by
    rw [hk₁]
    split
    · exact h.setPrio ht hp
    · exact h
  have h0' : k₁.current ≠ tidNull := by
    rw [hk₁]
    split
    · exact h0
    · exact h0
  refine Ends.ite (fun _ => h1.setPrio ht hp) fun _ => ?_
  refine Ends.ite (fun _ => h1) fun _ => ?_
  refine Ends.ite (fun _ => h1.promote hp h0' ht) fun _ => ?_
  refine Ends.ite (fun _ => ?_) fun _ => h1.requeue hp ht
  exact Ends.ite (fun _ => h1.demoteSelf hp h0') fun _ => h1

end SetPrio

theorem Indexed.kTskSetPrio (h0 : k.current ≠ tidNull) (taskId prio : Nat) :
    Ends (k.kTskSetPrio taskId prio) NoIndex fun r => Indexed A r.1 := by
  unfold Kernel.kTskSetPrio
  refine Ends.ite (fun _ => h.setErrno _) fun hid => ?_
  rw [ends_bind]
  refine (tcbAt_ends taskId).mono (fun e he => he.1 ▸ fun e => (by cases e)) fun t ht => ?_
  refine Ends.ite (fun _ => h.setErrno _) fun hnull => ?_
  refine Ends.ite (fun _ => h.setErrno _) fun hperm => ?_
  refine Ends.ite (fun _ => h.setErrno _) fun _ => ?_
  refine Ends.ite (fun _ => h.setErrno _) fun _ => ?_
  have htn : t ≠ tidNull := fun e => by
    have : (k.tcb t).prio = prioNull := ((h.links.data t).null e).1
    exact hnull (Or.inl this)
  have hta : A t := ((h.links.data t).created htn).mpr fun e =>
    hperm (Or.inr (Or.inr (Or.inr e)))
  have hp : ∃ i : Fin 5, prio = order2priority i.val := by
    rcases priority2order_cases prio with e | e | e
    · rw [e] at hid
      simp at hid
    · exact absurd (Or.inr e) hnull
    · exact e
  exact Ends.bind (h.changePrio hp h0 hta taskId) fun _ h1 => h1

theorem Indexed.kTskExit : Indexed A k.kTskExit := h.runScheduled

theorem Indexed.kRtTskSet (h0 : k.current ≠ tidNull) (tv : Timeval) :
    Ends (k.kRtTskSet tv) NoIndex fun r => Indexed A r.1 := by
  unfold Kernel.kRtTskSet
  refine Ends.ite (fun _ => h.setErrno _) fun _ => ?_
  refine Ends.ite (fun _ => h.setErrno _) fun _ => ?_
  have h1 := h.modifyTask (h.cur h0) (f := fun d => { d with
    realTime := true
    tskPeriod := (tv.sec * 1000000 + tv.usec) % 2 ^ 32 / 500
    tskDeadline := add32 (add32 k.timerCount 1) ((tv.sec * 1000000 + tv.usec) % 2 ^ 32 / 500)
    prio := prioRt
    state := .ready }) ⟨0, rfl⟩ (by simp)
  exact Ends.bind_ok (a := .ready 0) rfl (Ends.bind (h1.pushTail (h.cur h0) _) fun _ h2 =>
    h2.runScheduled)

theorem Indexed.kRtTskSusp (h0 : k.current ≠ tidNull) :
    Ends k.kRtTskSusp NoIndex fun r => Indexed A r.1 := by
  unfold Kernel.kRtTskSusp
  refine Ends.ite (fun _ => h.setErrno _) fun _ => ?_
  have h1 := h.setTaskState (v := .suspended) (h.cur h0) (by simp)
  have hd := h1.links.data k.current
  have h2 := h1.modifyTcb (t := k.current) (f := fun d => { d with
    tskDeadline := (k.setTaskState k.current .suspended).nextDeadline d.tskDeadline d.tskPeriod })
    ⟨hd.prio, hd.null, hd.created⟩
  exact Ends.bind (h2.pushTail (h.cur h0) _) fun _ h3 => h3.runScheduled

/-! ## 4. The calls on mailboxes -/

theorem Indexed.kMbxCreate (size : Nat) :
    Ends (k.kMbxCreate size) NoIndex fun r => Indexed A r.1 := by
  unfold Kernel.kMbxCreate
  rw [ends_bind]
  refine (mbxAt_ends _).mono (fun e he => he.1 ▸ fun e => (by cases e)) fun m _ => ?_
  refine Ends.ite (fun _ => h.setErrno _) fun _ => ?_
  refine Ends.ite (fun _ => h.setErrno _) fun _ => ?_
  rw [ends_bind]
  refine (k.mpoolAlloc_ends _ _).mono (fun e he => he ▸ fun e => (by cases e)) fun r hr => ?_
  obtain ⟨k₁, ptr⟩ := r
  obtain ⟨mem, rfl⟩ := hr
  cases ptr with
  | none => exact h.frame rfl rfl rfl rfl
  | some a =>
      refine ⟨(h.links.setQueue (q := .waiting m) (v := ⟨none, none, 0⟩) Tasks.Leads.none
        Tasks.Leads.none).frame rfl rfl, h.null, h.current, h.pend⟩

/-- Only a created task waits for a message. -/
theorem Indexed.blkRecv (hs : (k.tcb t).state = .blkRecv) : A t := by
  have htn : t ≠ tidNull := fun e => ((h.links.data t).null e).2.2 hs
  refine ((h.links.data t).created htn).mpr ?_
  change (k.tcb t).state ≠ _
  rw [hs]
  simp

theorem Indexed.wake (h0 : k.current ≠ tidNull) (t : Tid) (preempt : Bool) :
    Ends (k.wake t preempt) NoIndex (Indexed A) := by
  unfold Kernel.wake
  refine Ends.ite (fun hs => ?_) fun _ => h
  have ht := h.blkRecv hs
  obtain ⟨i, hi⟩ := h.readyAt ht
  refine Ends.bind_ok hi ?_
  rw [ends_bind]
  refine ((h.pushTail ht _).and (k.pushTail_tasks t (.ready i))).mono (fun _ => And.left)
    fun k₁ hk₁ => ?_
  obtain ⟨h1, s, rfl⟩ := hk₁
  have h2 := h1.setTaskState (v := .ready) ht (by simp)
  refine Ends.ite (fun _ => ?_) fun _ => h2
  obtain ⟨j, hj⟩ := h2.readyAt (h.cur h0)
  exact Ends.bind_ok hj (h2.pushHead (h.cur h0) _).kTskRunNew

theorem Indexed.deliver (h0 : k.current ≠ tidNull) (m : MbxId) (buf : Buf) (preempt : Bool) :
    Ends (k.deliver m buf preempt) NoIndex (Indexed A) := by
  unfold Kernel.deliver
  rw [ends_bind]
  refine ((h.pushBuffer m buf).and (k.pushBuffer_ends m buf)).mono (fun _ => And.left)
    fun k₁ hk₁ => ?_
  obtain ⟨h1, mb, bytes, rfl⟩ := hk₁
  cases m with
  | uart => exact h1
  | task t => exact h1.wake h0 t preempt

theorem Indexed.blockSend (h0 : k.current ≠ tidNull) (m : MbxId) (buf : Buf) :
    Ends (k.blockSend m buf) NoIndex (Indexed A) := by
  have h1 := h.modifyTask (h.cur h0) (f := fun d => { d with
    state := .blkSend
    messageHeader := some buf }) ((h.links.data k.current).prio h0) (by simp)
  exact Ends.bind (h1.pushTail (h.cur h0) _) fun k₁ h2 => h2.kTskRunNew

theorem Indexed.kSendMsg (h0 : k.current ≠ tidNull) (receiverTid : Nat) (buf : Buf) :
    Ends (k.kSendMsg receiverTid buf) NoIndex fun r => Indexed A r.1 := by
  unfold Kernel.kSendMsg
  rw [ends_bind]
  refine (k.checkSend_ends receiverTid buf).mono (fun e he => he.1 ▸ fun e => (by cases e))
    fun r _ => ?_
  cases r with
  | error e => exact h.setErrno e
  | ok m =>
      refine Ends.ite (fun _ => ?_) fun _ => ?_
      · exact Ends.bind (h.deliver h0 m buf true) fun _ h1 => h1
      · exact Ends.bind (h.blockSend h0 m buf) fun _ h1 => h1

theorem Indexed.kSendMsgNb (h0 : k.current ≠ tidNull) (receiverTid : Nat) (buf : Buf) :
    Ends (k.kSendMsgNb receiverTid buf) NoIndex fun r => Indexed A r.1 := by
  unfold Kernel.kSendMsgNb
  rw [ends_bind]
  refine (k.checkSend_ends receiverTid buf).mono (fun e he => he.1 ▸ fun e => (by cases e))
    fun r _ => ?_
  cases r with
  | error e => exact h.setErrno e
  | ok m =>
      refine Ends.ite (fun _ => ?_) fun _ => h.setErrno _
      exact Ends.bind (h.deliver h0 m buf _) fun _ h1 => h1

omit h in
/-- The loop of the receives, by induction on the rounds; the caller stays. -/
theorem Indexed.releaseLoop (m : MbxId) (n : Nat) (h : Indexed A k) :
    Ends (Kernel.releaseLoop m n k) NoIndex fun k' => Indexed A k' ∧ k'.current = k.current := by
  induction n generalizing k with
  | zero => exact ⟨h, rfl⟩
  | succ n ih =>
      unfold Kernel.releaseLoop
      cases hh : (k.queue (.waiting m)).head with
      | none => exact ⟨h, rfl⟩
      | some t =>
          have ht := h.links.head _ t hh
          dsimp only
          cases (k.tcb t).messageHeader with
          | none => exact fun e => (by cases e)
          | some buf =>
              refine Ends.ite (fun _ => ⟨h, rfl⟩) fun _ => ?_
              rw [ends_bind]
              refine (((h.popHead (.waiting m)).pushBuffer m buf).and
                ((k.popHead (.waiting m)).pushBuffer_ends m buf)).mono (fun _ => And.left)
                fun k₁ hk₁ => ?_
              obtain ⟨h1, mb, bytes, rfl⟩ := hk₁
              obtain ⟨i, hi⟩ := h1.readyAt ht
              refine Ends.bind_ok hi ?_
              rw [ends_bind]
              refine ((h1.pushTail ht (.ready i)).and (Kernel.pushTail_tasks _ t _)).mono
                (fun _ => And.left) fun k₂ hk₂ => ?_
              obtain ⟨h2, s, rfl⟩ := hk₂
              exact ih h2

theorem Indexed.recvRest (h0 : k.current ≠ tidNull) (m : MbxId) (buf : Buf) (len : Nat) :
    Ends (k.recvRest m buf len) NoIndex fun r => Indexed A r.1 := by
  unfold Kernel.recvRest
  rw [ends_bind]
  refine ((h.popBuffer m buf len).and (k.popBuffer_ends m buf len)).mono (fun _ => And.left)
    fun r hr => ?_
  obtain ⟨k₁, buf, check⟩ := r
  obtain ⟨h1, mb, rfl⟩ := hr
  refine Ends.bind (Indexed.releaseLoop m _ h1) fun k₂ hk₂ => ?_
  exact Ends.bind (hk₂.1.giveWay (hk₂.2.trans_ne h0)) fun _ h3 => h3

theorem Indexed.setPend (ht : t ≠ tidNull) (p : Option Pending) :
    Indexed A { k with pend := Function.update k.pend t p } :=
  ⟨h.links, h.null, h.current, (Function.update_of_ne ht.symm _ _).trans h.pend⟩

theorem Indexed.resumeRecv (h0 : k.current ≠ tidNull) (p : Pending) :
    Ends (k.resumeRecv p) NoIndex fun r => Indexed A r.1 := by
  have h1 := h.setPend h0 none
  exact Ends.bind (h1.recvRest h0 p.mbx p.buf p.len) fun _ h2 => h2

omit h in
/-- A task that was not switched out still runs. -/
theorem Kernel.kTskRunNew_stays (k : Kernel) (hs : k.kTskRunNew.2 = false) :
    k.kTskRunNew.1.current = k.current := by
  unfold Kernel.kTskRunNew at hs ⊢
  split
  · rfl
  next hrt =>
    rw [if_neg hrt] at hs
    dsimp only at hs ⊢
    split
    next hne =>
      rw [if_pos hne] at hs
      split at hs <;> cases hs
    next he => exact not_not.mp he

theorem Indexed.kRecvMsg (h0 : k.current ≠ tidNull) (buf : Option Buf) (len : Nat) :
    Ends (k.kRecvMsg buf len) NoIndex fun r => Indexed A r.1 := by
  unfold Kernel.kRecvMsg
  cases buf with
  | none => exact h.setErrno _
  | some buf =>
      dsimp only
      rw [ends_bind]
      refine k.recvMbx_ends.mono (fun e he => he ▸ fun e => (by cases e)) fun m _ => ?_
      refine Ends.ite (fun _ => h.setErrno _) fun _ => ?_
      rw [ends_bind]
      refine ((h.popBuffer m buf len).and (k.popBuffer_ends m buf len)).mono (fun _ => And.left)
        fun r hr => ?_
      obtain ⟨k₁, buf, check⟩ := r
      obtain ⟨h1, mb, rfl⟩ := hr
      refine Ends.ite (fun _ => h1.setErrno _) fun _ => ?_
      refine Ends.ite (fun _ => ?_) fun _ => ?_
      · -- the mailbox is empty
        have h2 := (h1.setTaskState (v := .blkRecv) (h.cur h0) (by simp)).kTskRunNew
        dsimp only
        refine Ends.ite (fun _ => h2.setPend h0 _) fun hs => ?_
        have hc := Kernel.kTskRunNew_stays _ (Bool.eq_false_iff.mpr hs)
        exact Ends.bind (h2.recvRest (hc.trans_ne h0) m buf len) fun _ h3 => h3
      · refine Ends.bind (Indexed.releaseLoop m _ h1) fun k₂ hk₂ => ?_
        exact Ends.bind (hk₂.1.giveWay (hk₂.2.trans_ne h0)) fun _ h3 => h3

theorem Indexed.kRecvMsgNb (h0 : k.current ≠ tidNull) (buf : Option Buf) (len : Nat) :
    Ends (k.kRecvMsgNb buf len) NoIndex fun r => Indexed A r.1 := by
  unfold Kernel.kRecvMsgNb
  cases buf with
  | none => exact h.setErrno _
  | some buf =>
      dsimp only
      rw [ends_bind]
      refine k.recvMbx_ends.mono (fun e he => he ▸ fun e => (by cases e)) fun m _ => ?_
      refine Ends.ite (fun _ => h.setErrno _) fun _ => ?_
      refine Ends.ite (fun _ => h.setErrno _) fun _ => ?_
      rw [ends_bind]
      refine ((h.popBuffer m buf len).and (k.popBuffer_ends m buf len)).mono (fun _ => And.left)
        fun r hr => ?_
      obtain ⟨k₁, buf, check⟩ := r
      obtain ⟨h1, mb, rfl⟩ := hr
      refine Ends.ite (fun _ => h1.setErrno _) fun _ => ?_
      refine Ends.bind (Indexed.releaseLoop m _ h1) fun k₂ hk₂ => ?_
      refine Ends.ite (fun _ => hk₂.1) fun _ => ?_
      exact Ends.bind (hk₂.1.giveWay (hk₂.2.trans_ne h0)) fun _ h3 => h3

/-! ## 5. The timer interrupt -/

omit h in
/-- The loop over `suspend_tsk`, by induction on the rounds. -/
theorem Indexed.releaseDue (fuel : Nat) {v : Option Tid} (h : Indexed A k)
    (hv : Tasks.Leads A v) : Post (Kernel.releaseDue fuel k v) (Indexed A) := by
  induction fuel generalizing k v with
  | zero =>
      cases v with
      | none => exact h
      | some t => exact True.intro
  | succ fuel ih =>
      cases v with
      | none => exact h
      | some t =>
          have ht := hv t rfl
          have hn := h.links.next t
          unfold Kernel.releaseDue
          refine Ends.ite (fun _ => ?_) fun _ => ih h hn
          refine Ends.bind (h.popTask t .suspend).post fun k₁ h1 => ?_
          have h2 := h1.setTaskState (v := .ready) ht (by simp)
          refine Ends.bind Ends.trivial fun q _ => ?_
          exact Ends.bind (h2.pushTail ht q).post fun k₂ h3 => ih h3 hn

theorem Indexed.countExecution (t : Tid) : Indexed A (k.countExecution t) := by
  have hd := h.links.data t
  exact h.modifyTcb (f := fun d => { d with nthExecution := d.nthExecution + 1 })
    ⟨hd.prio, hd.null, hd.created⟩

theorem Indexed.countIf (t : Tid) (c : Prop) [Decidable c] :
    Indexed A (if c then k.countExecution t else k) := by
  split
  · exact h.countExecution t
  · exact h

/-- A task that is put back has a ready queue, so it is not the null task. -/
theorem Indexed.putBack (ht : t = tidNull ∨ A t) : Post (k.putBack t) (Indexed A) := by
  unfold Kernel.putBack
  rcases ht with rfl | ht
  · rw [show (k.tcb tidNull).prio = prioNull from ((h.links.data tidNull).null rfl).1]
    exact True.intro
  · exact Ends.bind Ends.trivial fun q _ => h.pushHead ht q

theorem Indexed.preemptNull : Indexed A k.preemptNull := by
  obtain ⟨h1, ht⟩ := h.scheduler
  unfold Kernel.preemptNull
  dsimp only
  split
  · exact (h1.switchTo ht).countIf _ _
  · exact h1

theorem Indexed.preemptRealTime (hc : A k.current) : Post k.preemptRealTime (Indexed A) := by
  obtain ⟨h1, ht⟩ := h.scheduler
  unfold Kernel.preemptRealTime
  refine Ends.ite (fun _ => (h1.switchTo ht).countIf _ _) fun _ => ?_
  refine Ends.ite (fun _ => ?_) fun _ => h
  refine Ends.ite (fun _ => ?_) fun _ => h1.putBack ht
  refine Ends.ite (fun _ => ?_) fun _ => h1.putBack ht
  have hc1 : A k.scheduler.1.current := by rw [k.scheduler_current]; exact hc
  refine Ends.bind Ends.trivial fun q _ => ?_
  refine Ends.bind (h1.pushTail hc1 q).post fun k₁ h2 => ?_
  exact ((h2.setTaskState (v := .ready) hc1 (by simp)).switchTo ht).countExecution _

theorem Indexed.preemptOther (hc : A k.current) : Post k.preemptOther (Indexed A) := by
  obtain ⟨h1, ht⟩ := h.scheduler
  unfold Kernel.preemptOther
  refine Ends.ite (fun _ => ?_) fun _ => h1
  refine Ends.ite (fun _ => ?_) fun _ => h1.putBack ht
  have hc1 : A k.scheduler.1.current := by rw [k.scheduler_current]; exact hc
  have h2 := h1.setTaskState (v := .ready) hc1 (by simp)
  refine Ends.bind Ends.trivial fun q _ => ?_
  exact ((h2.pushHead hc1 q).switchTo ht).countExecution _

theorem Indexed.timer0IrqHandler (tc pc : Nat) :
    Post (k.timer0IrqHandler tc pc) (Indexed A) := by
  have h1 : Indexed A { k with timerCount := Kernel.correctRound tc pc } := h.frame rfl rfl rfl rfl
  unfold Kernel.timer0IrqHandler
  dsimp only
  cases hh : (k.queue .suspend).head with
  | none => exact True.intro
  | some t =>
      have ht := h.links.head _ t hh
      refine Ends.bind (Indexed.releaseDue (2 ^ 32) (h1.setTaskState (v := .suspended) ht
        (by simp)) (Tasks.Leads.some ht)) fun k₁ h2 => ?_
      unfold Kernel.preempt
      refine Ends.ite (fun _ => h2.preemptNull) fun h0 => ?_
      exact Ends.ite (fun _ => h2.preemptRealTime (h2.cur h0)) fun _ =>
        h2.preemptOther (h2.cur h0)

end Calls

/-! ## 6. The boot -/

theorem Indexed.createSystemTasks (h : Indexed A k) (ts : List (Tid × TaskInit))
    (hts : ∀ x ∈ ts, x.1 ≠ tidNull ∧ ∃ i : Fin 5, x.2.prio = order2priority i.val) :
    Post (Kernel.createSystemTasks ts k) fun r => ∃ A', Indexed A' r.1 := by
  induction ts generalizing k A with
  | nil => exact ⟨A, h⟩
  | cons x ts ih =>
      obtain ⟨t, info⟩ := x
      obtain ⟨h0, hp⟩ := hts _ List.mem_cons_self
      unfold Kernel.createSystemTasks
      refine Ends.bind (h.createNew info h0).post fun r hr => ?_
      obtain ⟨k₁, x⟩ := r
      obtain ⟨-, ⟨-, rfl, h1⟩ | ⟨-, rfl, -, h1⟩⟩ := hr
      · exact Ends.ite (fun e => absurd e rtxErr_ne_rtxOk) fun _ => ⟨A, h1⟩
      refine Ends.ite (fun _ => ?_) fun e => absurd rfl e
      refine Ends.bind Ends.trivial fun q _ => ?_
      exact Ends.bind ((h1 hp).pushTail (Or.inr rfl) q).post fun k₂ h2 =>
        ih h2 fun y hy => hts y (List.mem_cons_of_mem _ hy)

theorem Indexed.createBootTasks {ts : List TaskInit} {j : Nat} (h : Indexed A k) (hj : 1 ≤ j)
    (hts : ∀ x ∈ ts, ∃ i : Fin 5, x.prio = order2priority i.val) :
    Post (Kernel.createBootTasks j ts k) fun k' => ∃ A', Indexed A' k' := by
  induction ts generalizing k A j with
  | nil => exact ⟨A, h⟩
  | cons info ts ih =>
      have hp := hts _ List.mem_cons_self
      have hts' : ∀ x ∈ ts, ∃ i : Fin 5, x.prio = order2priority i.val := fun x hx =>
        hts x (List.mem_cons_of_mem _ hx)
      unfold Kernel.createBootTasks
      refine Ends.bind (tcbAt_ends j).post fun t ht => ?_
      have h0 : t ≠ tidNull := fun e => by
        rw [e] at ht
        simp only [tidNull, Fin.val_zero] at ht
        omega
      refine Ends.bind (h.createNew info h0).post fun r hr => ?_
      obtain ⟨k₁, x⟩ := r
      obtain ⟨-, ⟨-, rfl, h1⟩ | ⟨-, rfl, -, h1⟩⟩ := hr
      · exact Ends.ite (fun e => absurd e rtxErr_ne_rtxOk) fun _ => ih h1 (by omega) hts'
      refine Ends.ite (fun _ => ?_) fun e => absurd rfl e
      refine Ends.bind Ends.trivial fun q _ => ?_
      exact Ends.bind ((h1 hp).pushTail (Or.inr rfl) q).post fun k₂ h2 => ih h2 (by omega) hts'

theorem Indexed.createUartMailbox (h : Indexed A k) :
    Post k.createUartMailbox fun r => Indexed A r.1 := by
  unfold Kernel.createUartMailbox
  refine Ends.bind (k.mpoolAlloc_ends _ _).post fun r hr => ?_
  obtain ⟨k₁, ptr⟩ := r
  obtain ⟨mem, rfl⟩ := hr
  cases ptr with
  | none => exact h.frame rfl rfl rfl rfl
  | some a =>
      exact ⟨(h.links.setQueue (q := .waiting .uart) (v := ⟨none, none, 0⟩) Tasks.Leads.none
        Tasks.Leads.none).frame rfl rfl, h.null, h.current, h.pend⟩

/-- The null task is created first. -/
theorem Blank.createNull_indexed (h : Blank k) (hprev : ∀ t, (k.tcb t).prev = none) :
    Post (k.kTskCreateNew Kernel.tskInitFirst tidNull) fun r => r.2 = rtxOk →
      Indexed (fun _ => False) (r.1.setCurrent tidNull) := by
  refine (kTskCreateNew_spec k Kernel.tskInitFirst tidNull).imp fun r hr => ?_
  obtain ⟨r, x⟩ := r
  obtain ⟨power, k₁, ptr, -, hal, hr⟩ := hr
  obtain ⟨m, -, rfl⟩ := mpoolAlloc_eq_ok hal
  obtain ⟨-, rfl, -⟩ | ⟨a, rfl, rfl, rfl⟩ := hr
  · exact fun e => absurd e rtxErr_ne_rtxOk
  intro _
  set f : TcbData → TcbData := fun _ => Kernel.tskInitFirst.tcb tidNull a (power2 power)
  have hlinks : (k.modifyTcb tidNull f).toTasks.Guarded (fun _ => False)
      (Ranked fun _ => False) := by
    have hnone : ∀ {v : Option Tid}, v = none → Tasks.Leads (fun _ => False) v := fun e =>
      e ▸ Tasks.Leads.none
    refine ⟨fun u => hnone ?_, fun u => hnone ?_, fun q => hnone ?_, fun q => hnone ?_,
      fun u => ?_⟩
    · exact (k.toTasks.modify_next tidNull u f).trans (h.tcb u).1
    · exact (k.toTasks.modify_prev tidNull u f).trans (hprev u)
    · exact congrArg Queue.head (h.queue q)
    · exact congrArg Queue.tail (h.queue q)
    rw [show Tasks.data (k.modifyTcb tidNull f).toTasks u = _ from
      congrFun (k.data_modifyTcb tidNull f) u, Function.update_apply]
    split
    next e =>
      exact ⟨fun h0 => absurd e h0, fun _ => ⟨rfl, rfl, by simp [f, TaskInit.tcb]⟩,
        fun h0 => absurd e h0⟩
    next e =>
      obtain ⟨-, hs, hp, -⟩ := h.tcb u
      exact ⟨fun _ => ⟨0, hp⟩, fun e' => absurd e' e, fun _ => ⟨fun hf => hf.elim, fun hne =>
        hne hs⟩⟩
  exact ⟨hlinks.frame rfl rfl, id, Or.inl rfl, h.pend _⟩

theorem Blank.kTskInit_indexed (h : Blank k) (hprev : ∀ t, (k.tcb t).prev = none)
    {tasks : List TaskInit} (hts : ∀ x ∈ tasks, ∃ i : Fin 5, x.prio = order2priority i.val) :
    Post (k.kTskInit tasks) fun r => r.2 = rtxOk → ∃ A, Indexed A r.1 := by
  unfold Kernel.kTskInit
  refine Ends.ite (fun _ e => absurd e rtxErr_ne_rtxOk) fun _ => ?_
  refine Ends.bind (h.clear.createNull_indexed hprev) fun r hr => ?_
  refine Ends.ite (fun _ e => absurd e rtxErr_ne_rtxOk) fun hx => ?_
  have h1 := hr (not_not.mp hx)
  refine Ends.bind (h1.createSystemTasks Kernel.systemTasks (by decide)) fun r hr => ?_
  obtain ⟨A₂, h2⟩ := hr
  refine Ends.ite (fun _ e => absurd e rtxErr_ne_rtxOk) fun _ => ?_
  refine Ends.bind h2.createUartMailbox fun r h3 => ?_
  refine Ends.ite (fun _ e => absurd e rtxErr_ne_rtxOk) fun _ => ?_
  refine Ends.bind (h3.createBootTasks (j := 1) le_rfl hts) fun k₄ hk₄ => ?_
  obtain ⟨A₄, h4⟩ := hk₄
  exact fun _ => ⟨A₄, h4.runScheduled⟩

theorem Booted.indexed (h : Booted k) : ∃ A, Indexed A k := by
  obtain ⟨m, bytes, tasks, hk, -, hprio⟩ := h
  have hpost : Post ((Kernel.reset m bytes).kRtxInit buddy tasks) fun r =>
      r.2 = rtxOk → ∃ A, Indexed A r.1 := by
    unfold Kernel.kRtxInit
    refine Ends.ite (fun _ e => absurd e rtxErr_ne_rtxOk) fun _ => ?_
    refine Ends.ite (fun _ e => absurd e rtxErr_ne_rtxOk) fun _ => ?_
    refine Ends.bind ((blank_memInit m bytes).kTskInit_indexed (fun _ => rfl) (bootPrio hprio))
      fun r hr => ?_
    exact Ends.ite (fun _ e => absurd e rtxErr_ne_rtxOk) fun hx _ => hr (not_not.mp hx)
  exact hpost.of_ok hk rfl

/-! ## 7. The indices -/

/-- The event is a `k_tsk_create` that takes PRIO_NULL for an index. -/
def Kernel.CreatesNullTask (k : Kernel) : Event → Prop
  | .call (.tskCreate _ prio stackSize) => k.CreatesNull prio stackSize
  | _ => False

instance (k : Kernel) (e : Event) : Decidable (k.CreatesNullTask e) :=
  match e with
  | .call (.tskCreate _ prio stackSize) => inferInstanceAs (Decidable (k.CreatesNull prio stackSize))
  | .call (.memAlloc _) | .call (.memDealloc _) | .call .tskExit | .call .tskYield
  | .call (.tskSetPrio ..) | .call (.tskGet ..) | .call .tskGettid | .call (.tskLs ..)
  | .call (.mbxCreate _) | .call (.mbxSend ..) | .call (.mbxSendNb ..) | .call (.mbxRecv ..)
  | .call (.mbxRecvNb ..) | .call (.mbxLs ..) | .call (.mbxGet _) | .call (.rtTskSet _)
  | .call .rtTskSusp | .call (.rtTskGet ..) | .resume | .timer .. | .overwrite .. => .isFalse id

/-- The event is a call, or the second half of one. -/
def Event.calling : Event → Bool
  | .call _ | .resume => true
  | .timer .. | .overwrite .. => false

/-- The calls that only answer a question stop at no index of `ready_queue`. -/
theorem Indexed.unchanged (h : Indexed A k) (hk : Unchanged k k') : Indexed A k' := by
  rcases hk with rfl | ⟨e, rfl⟩
  · exact h
  · exact h.setErrno e

section Step

variable (h : Indexed A k)
include h

/-- Somebody writes to the buffer of a blocked sender. -/
theorem Indexed.overwrite (t : Tid) (buf : Buf) : Indexed A (if (k.tcb t).state = .blkSend then
    k.modifyTcb t fun d => { d with messageHeader := some buf } else k) := by
  have hd := h.links.data t
  split
  · exact h.modifyTcb (f := fun d => { d with messageHeader := some buf })
      ⟨hd.prio, hd.null, hd.created⟩
  · exact h

/-- The calls that create no task. -/
theorem Indexed.svcHandler {c : Call} (h0 : k.current ≠ tidNull)
    (hc : ∀ taskEntry prio stackSize, c ≠ .tskCreate taskEntry prio stackSize) :
    Ends (k.svcHandler c) NoIndex fun r => Indexed A r.1 := by
  cases c with
  | memAlloc size =>
      have h1 : Ends (k.mpoolAlloc mpidIram1 size) NoIndex fun r => Indexed A r.1 :=
        (k.mpoolAlloc_ends _ _).mono (fun e he => he ▸ fun e => (by cases e))
          fun r ⟨m, hr⟩ => hr ▸ h.frame rfl rfl rfl rfl
      exact Ends.bind h1 fun _ hr => hr
  | memDealloc ptr =>
      have h1 : Ends (k.mpoolDealloc mpidIram1 ptr) NoIndex fun r => Indexed A r.1 :=
        (k.mpoolDealloc_ends _ _).mono (fun e he => he ▸ fun e => (by cases e))
          fun r ⟨m, hr⟩ => hr ▸ h.frame rfl rfl rfl rfl
      exact Ends.bind h1 fun _ hr => hr
  | tskCreate taskEntry prio stackSize => exact absurd rfl (hc taskEntry prio stackSize)
  | tskExit => exact h.kTskExit
  | tskYield => exact Ends.bind h.kTskYield fun _ hr => hr
  | tskSetPrio taskId prio => exact Ends.bind (h.kTskSetPrio h0 taskId prio) fun _ hr => hr
  | tskGet tid buffer msp psp =>
      exact Ends.bind ((k.kTskGet_ends tid buffer msp psp).mono (fun _ hf => hf.elim) fun _ => id)
        fun _ hr => h.unchanged hr.1
  | tskGettid => exact h
  | tskLs buf count => exact h.unchanged (k.kTskLs_unchanged buf count)
  | mbxCreate size => exact Ends.bind (h.kMbxCreate size) fun _ hr => hr
  | mbxSend receiverTid buf => exact Ends.bind (h.kSendMsg h0 receiverTid buf) fun _ hr => hr
  | mbxSendNb receiverTid buf => exact Ends.bind (h.kSendMsgNb h0 receiverTid buf) fun _ hr => hr
  | mbxRecv buf len => exact Ends.bind (h.kRecvMsg h0 buf len) fun _ hr => hr
  | mbxRecvNb buf len => exact Ends.bind (h.kRecvMsgNb h0 buf len) fun _ hr => hr
  | mbxLs buf count => exact h.unchanged (k.kMbxLs_unchanged buf count)
  | mbxGet tid =>
      exact Ends.bind ((k.kMbxGet_ends tid).mono (fun _ he => he.1 ▸ fun e => (by cases e))
        fun _ => id) fun _ hr => h.unchanged hr.1
  | rtTskSet tv => exact Ends.bind (h.kRtTskSet h0 tv) fun _ hr => hr
  | rtTskSusp => exact Ends.bind (h.kRtTskSusp h0) fun _ hr => hr
  | rtTskGet tid buffer =>
      exact Ends.bind ((k.kRtTskGet_ends tid buffer).mono
        (fun _ he => he.1 ▸ fun e => (by cases e)) fun _ => id) fun _ hr => h.unchanged hr.1

/-- The calls, and the second half of a receive. -/
theorem Indexed.exec {e : Event} (hl : k.Legal e) (hcall : e.calling = true)
    (h0 : k.current ≠ tidNull) :
    Ends (k.exec e) (fun f => f = .readyIndex ↔ k.CreatesNullTask e)
      fun r => ¬ k.CreatesNullTask e ∧ ∃ A', Indexed A' r.1 := by
  have hother : ∀ {x : Except Fault (Kernel × Reply)}, ¬ k.CreatesNullTask e →
      Ends x NoIndex (fun r => Indexed A r.1) →
      Ends x (fun f => f = .readyIndex ↔ k.CreatesNullTask e)
        fun r => ¬ k.CreatesNullTask e ∧ ∃ A', Indexed A' r.1 := fun hn hx =>
    hx.mono (fun f hf => ⟨fun h => absurd h hf, fun h => absurd h hn⟩) fun r hr => ⟨hn, A, hr⟩
  cases e with
  | timer | overwrite => cases hcall
  | resume =>
      refine hother id ?_
      unfold Kernel.exec
      cases hp : k.pend k.current with
      | none => exact absurd hp hl
      | some p => exact Ends.bind (h.resumeRecv h0 p) fun _ hr => hr
  | call c =>
      by_cases hc : ∃ taskEntry prio stackSize, c = .tskCreate taskEntry prio stackSize
      · obtain ⟨taskEntry, prio, stackSize, rfl⟩ := hc
        exact Ends.bind ((h.kTskCreate h0 taskEntry prio stackSize).mono (fun _ => id)
          fun _ => id) fun _ hr => hr
      · refine hother (fun hn => ?_) (h.svcHandler h0 fun a p s e => hc ⟨a, p, s, e⟩)
        cases c with
        | tskCreate taskEntry prio stackSize => exact hc ⟨_, _, _, rfl⟩
        | _ => exact hn

omit h in
/-- **One event.** -/
theorem Indexed.step {e : Event} (h : ∃ A, Indexed A k) (hl : k.Legal e)
    (hs : k.step e = some k') : ∃ A, Indexed A k' := by
  obtain ⟨A, h⟩ := h
  have hpost : Post (k.exec e) fun r => ∃ A, Indexed A r.1 := by
    by_cases h0 : k.current = tidNull
    · -- the null task only yields
      cases e with
      | call c =>
          obtain rfl := hl.2 h0
          exact Ends.bind h.kTskYield.post fun _ hr => ⟨A, hr⟩
      | resume => exact absurd (h0 ▸ h.pend) hl
      | timer tc pc => exact Ends.bind (h.timer0IrqHandler tc pc) fun _ hr => ⟨A, hr⟩
      | overwrite t buf => exact ⟨A, h.overwrite t buf⟩
    · cases e with
      | call c => exact (h.exec hl rfl h0).mono (fun _ _ => trivial) fun _ => And.right
      | resume => exact (h.exec hl rfl h0).mono (fun _ _ => trivial) fun _ => And.right
      | timer tc pc => exact Ends.bind (h.timer0IrqHandler tc pc) fun _ hr => ⟨A, hr⟩
      | overwrite t buf => exact ⟨A, h.overwrite t buf⟩
  obtain ⟨r, hx⟩ := Kernel.step_eq_some.mp hs
  exact hpost.of_ok hx

end Step

/-- Every state that is reached. -/
theorem Indexed.run {es : List Event} (hb : Booted k) (h : Allowed Kernel.step Kernel.Legal k es)
    (hr : Lib.run Kernel.step k es = some k') : ∃ A, Indexed A k' :=
  run_reached (fun k => ∃ A, Indexed A k) (fun _ _ _ => Indexed.step) hb.indexed h hr

/-- **The indices of `ready_queue`**: in every state that is reached, a call of a task other than
    the null task leaves the array if and only if it creates a task with PRIO_NULL. -/
theorem ready_index {es : List Event} {e : Event} (hb : Booted k)
    (h : Allowed Kernel.step Kernel.Legal k es) (hr : Lib.run Kernel.step k es = some k')
    (hl : k'.Legal e) (hcall : e.calling = true) (h0 : k'.current ≠ tidNull) :
    k'.exec e ≠ .error .readyIndex ↔ ¬ k'.CreatesNullTask e := by
  obtain ⟨A, hA⟩ := Indexed.run hb h hr
  have hx := hA.exec hl hcall h0
  cases hk : k'.exec e with
  | error f =>
      rw [hk] at hx
      refine not_congr ⟨fun he => hx.mp (Except.error.inj he), fun hc => ?_⟩
      rw [hx.mpr hc]
  | ok r =>
      rw [hk] at hx
      exact ⟨fun _ => hx.1, fun _ e => (by cases e)⟩

theorem ready_index_yield : ∃ k', reached threeTasks tameEvents = some k' ∧
    (k'.exec (.call .tskYield) ≠ .error .readyIndex ↔ ¬ k'.CreatesNullTask (.call .tskYield)) := by
  have hr : (reached threeTasks tameEvents).any (fun k => k.pend k.current = none ∧
      k.current ≠ tidNull) = true := by decide +kernel
  obtain ⟨k', hk, hc⟩ := (Option.any_eq_true _ _).mp hr
  obtain ⟨hp, h0⟩ := of_decide_eq_true hc
  exact ⟨k', hk, ready_index booted_threeTasks (by decide +kernel) hk ⟨hp, fun _ => rfl⟩ rfl h0⟩

/-- PRIO_NULL is accepted, and is the index of no ready queue. -/
theorem null_task_created : ¬ ∀ (k k' : Kernel) (es : List Event) (e : Event), Booted k →
    Allowed Kernel.step Kernel.Legal k es → Lib.run Kernel.step k es = some k' → k'.Legal e →
    e.calling = true → k'.current ≠ tidNull → k'.exec e ≠ .error .readyIndex := by
  intro h
  have hx : (match (bootKernel threeTasks).exec (.call (.tskCreate 7 prioNull 0)) with
      | .error f => f == .readyIndex
      | .ok _ => false) = true := by decide +kernel
  refine h _ _ [] (.call (.tskCreate 7 prioNull 0)) booted_threeTasks trivial rfl
    (by decide +kernel) rfl (by decide +kernel) ?_
  revert hx
  cases (bootKernel threeTasks).exec (.call (.tskCreate 7 prioNull 0)) with
  | ok r => exact fun h => (by cases h)
  | error f => exact fun h => congrArg _ (of_decide_eq_true h)

end Rtx
