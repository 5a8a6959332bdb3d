/-
  File:      Rtx/Kern/RestTask.lean
  Subject:   The calls of k_task.c keep the kernel at rest.

  One theorem for each call. Two of them need a condition: `k_tsk_create` a priority other than
  PRIO_NULL, and `k_tsk_set_prio` must not raise a task above its caller that is strictly inside
  its ready queue (`Kernel.PromotesInside`): `pop_task` leaves such a task a stale successor, and
  `push_head` trusts it when the queue is empty.
-/
import Rtx.Kern.Rest
import Rtx.Lib.Outcome

namespace Rtx

open Lib

variable {k k' k₁ : Kernel} {L L' : Lists} {t : Tid}

/-- What a call leaves that moves no message: the kernel at rest, the mailboxes as they were, and
    the highest ready task running. -/
def Rescheduled (k k' : Kernel) (L : Lists) : Prop :=
  ∃ L', Rest k' L' ∧ Resched k.data k'.data L L' ∧ k'.mailbox = k.mailbox ∧ k'.pend = k.pend ∧
    (Top k L → Top k' L')

/-- What any call should leave: the kernel at rest and the highest ready task running. -/
def Kept (k k' : Kernel) (L : Lists) : Prop :=
  ∃ L', Rest k' L' ∧ (Top k L → Top k' L') ∧ NoNewRt k.data k'.data

theorem Rest.kept (h : Rest k L) : Kept k k L := ⟨L, h, id, NoNewRt.refl _⟩

/-- What a call leaves that moves no message but may change the priorities. -/
def Moved (k k' : Kernel) (L : Lists) : Prop :=
  ∃ L', Rest k' L' ∧ (Top k L → Top k' L') ∧ NoNewRt k.data k'.data ∧ Still k.data k'.data L L'

theorem Moved.kept (h : Moved k k' L) : Kept k k' L := by
  obtain ⟨L', h1, h2, h3, -⟩ := h
  exact ⟨L', h1, h2, h3⟩

theorem Rest.moved (h : Rest k L) : Moved k k L :=
  ⟨L, h, id, NoNewRt.refl _, Still.refl _ _⟩

theorem Rescheduled.moved (h : Rescheduled k k' L) : Moved k k' L := by
  obtain ⟨L', h1, h2, -, -, h3⟩ := h
  exact ⟨L', h1, h3, h2.realTime, h2.still⟩

theorem Rescheduled.kept (h : Rescheduled k k' L) : Kept k k' L := by
  obtain ⟨L', h1, h2, -, -, h3⟩ := h
  exact ⟨L', h1, h3, h2.realTime⟩

/-- The memory is untouched. -/
structure SameMem (k k' : Kernel) : Prop where
  bytes : k'.bytes = k.bytes
  ram1 : k'.ram1 = k.ram1
  ram2 : k'.ram2 = k.ram2

theorem Rest.rescheduled (h : Rest k L) : Rescheduled k k L :=
  ⟨L, h, Resched.refl _ _, rfl, rfl, id⟩

/-- A refused call changes `errno` only. -/
theorem Rest.refused (h : Rest k L) (e : Errno) : Rescheduled k (k.setErrno e) L :=
  ⟨L, h.frame rfl rfl rfl rfl (fun _ => rfl) rfl, Resched.refl _ _, rfl, rfl, id⟩

/-! ## 1. `k_tsk_yield` -/

theorem Rest.kTskYield (h : Rest k L) :
    Post k.kTskYield fun r => Rescheduled k r.1 L ∧ SameMem k r.1 := by
  have hsame : SameMem k k := ⟨rfl, rfl, rfl⟩
  unfold Kernel.kTskYield
  refine Ends.ite (fun _ => ⟨h.rescheduled, hsame⟩) fun hrun => ?_
  refine Ends.ite (fun _ => ⟨h.rescheduled, hsame⟩) fun hrt => ?_
  refine Ends.ite (fun _ => ⟨h.rescheduled, hsame⟩) fun _ => ?_
  have hrt' : (k.data k.current).realTime = false := Bool.eq_false_iff.mpr hrt
  refine Ends.ite (fun hp => ?_) fun hp => ?_
  · have h0 : k.current ≠ tidNull := fun e => hp ((h.task k.current).null e).1
    obtain ⟨hs, i, -, hi⟩ := h.running h0
    obtain ⟨s, h1, h2, h3, h4⟩ := h.toSound.pushTail (Set.mem_singleton _) h0
      (fun u hu => absurd hu (Set.notMem_empty u)) (Or.inr (Or.inl hs)) hi
    rw [Set.sdiff_self, h4 (Or.inl hrt')] at h2
    rw [h4 (Or.inl hrt')] at h3
    have hcur : s.data k.current = { k.data k.current with state := .ready } := by
      rw [h3, Function.update_self]
    obtain ⟨s', t, L', h5, h6, h7, h8, -⟩ := h2.runNew
      ((congrArg TcbData.realTime hcur).trans hrt')
      (fun _ => Or.inl (congrArg TcbData.state hcur))
    refine Ends.bind_ok hi (Ends.bind_ok h1 ?_)
    simp only [h5]
    exact ⟨⟨L', h6, (Resched.ready (by rw [hs]; simp) (by rw [hs]; simp) h3).trans h8, rfl, rfl,
      fun _ => h7⟩, rfl, rfl, rfl⟩
  · have h0 : k.current = tidNull := by
      by_contra h0
      obtain ⟨-, i, hi, -⟩ := h.running h0
      exact absurd (not_not.mp hp) (hi ▸ (order2priority_lt_null i).ne)
    have hp0 : Placed k.toTasks L ∅ ∅ := (h0 ▸ h.placed).drop_null
    obtain ⟨s', t, L', h5, h6, h7, h8, -⟩ := (⟨hp0, h.task, h.pend, h.inactive, h.uart⟩ :
      Sound k L ∅ ∅).runNew hrt' (fun hne => absurd h0 hne)
    simp only [h5]
    exact ⟨⟨L', h6, h8, rfl, rfl, fun _ => h7⟩, rfl, rfl, rfl⟩

/-! ## 2. `k_tsk_create` -/

/-- The TCB `k_tsk_create_new` makes for a user stack of `size` bytes at `base`. -/
def TaskInit.tcb (info : TaskInit) (tid : Tid) (base size : Nat) : TcbData where
  msp := (tid.val + 1) * kernStackSize - 12 * 4
  priv := info.priv
  tid := tid.val
  prio := info.prio
  state := .ready
  ptask := info.ptask
  psp := add32 base size
  uStackSize := size
  pspBase := some base
  messageHeader := none
  tskPeriod := 0
  tskDeadline := 0
  realTime := false
  nthExecution := 0

/-- An allocation changes the pools and `errno` only. -/
theorem mpoolAlloc_eq_ok {mpid : Int} {size : Nat} {ptr : Option Nat}
    (h : k.mpoolAlloc mpid size = .ok (k₁, ptr)) :
    ∃ m, kMpoolAlloc k.mem mpid size = some (m, ptr) ∧
      k₁ = { k with ram1 := m.ram1, ram2 := m.ram2, errno := m.errno } := by
  unfold Kernel.mpoolAlloc at h
  split at h
  · cases h
  next m ptr' hm =>
    simp only [Except.ok.injEq, Prod.mk.injEq] at h
    obtain ⟨rfl, rfl⟩ := h
    exact ⟨m, hm, rfl⟩

/-- What an allocation of the kernel returns is what the allocator returns. -/
theorem mpoolAlloc_mem {mpid : Int} {size : Nat} {m : Mem} {ptr : Option Nat}
    (h : k.mpoolAlloc mpid size =
      .ok ({ k with ram1 := m.ram1, ram2 := m.ram2, errno := m.errno }, ptr)) :
    kMpoolAlloc k.mem mpid size = some (m, ptr) := by
  obtain ⟨m', hm, he⟩ := mpoolAlloc_eq_ok h
  simp only [Kernel.mk.injEq, Tasks.mk.injEq] at he
  obtain ⟨⟨-, -, h1⟩, -, -, h2, h3, -⟩ := he
  obtain rfl : m' = m := by
    cases m
    cases m'
    simp_all
  exact hm

/-- **What `k_tsk_create_new` does.** -/
theorem kTskCreateNew_spec (k : Kernel) (info : TaskInit) (t : Tid) :
    Post (k.kTskCreateNew info t) fun r => ∃ power k₁ ptr, log2 info.uStackSize = some power ∧
      k.mpoolAlloc mpidIram2 (power2 power) = .ok (k₁, ptr) ∧
      (ptr = none ∧ r.2 = rtxErr ∧
          r.1 = (k₁.modifyTcb t fun d => { d with pspBase := none }).setErrno .ENOMEM ∨
        ∃ a, ptr = some a ∧ r.2 = rtxOk ∧
          r.1 = { k₁ with
            toTasks := k₁.toTasks.modify t fun _ => info.tcb t a (power2 power)
            bytes := pushWords k.bytes (add32 a (power2 power))
              [initialXPSR, info.ptask, 0, 0, 0, 0, 0, 0] }) := by
  unfold Kernel.kTskCreateNew
  cases hl : log2 info.uStackSize with
  | none => exact trivial
  | some power =>
      simp only
      cases ha : k.mpoolAlloc mpidIram2 (power2 power) with
      | error f => exact trivial
      | ok x =>
          obtain ⟨k₁, ptr⟩ := x
          have hb : k₁.bytes = k.bytes := by
            obtain ⟨m, -, rfl⟩ := mpoolAlloc_eq_ok ha
            rfl
          cases ptr with
          | none => exact ⟨power, k₁, none, rfl, ha, Or.inl ⟨rfl, rfl, rfl⟩⟩
          | some a =>
              refine ⟨power, k₁, some a, rfl, ha, Or.inr ⟨a, rfl, rfl, ?_⟩⟩
              simp only [Kernel.modifyTcb, Tasks.modify_modify, hb]
              rfl

theorem TaskInit.taskOk {info : TaskInit} (ht : t ≠ tidNull)
    (hp : ∃ i : Fin 5, info.prio = order2priority i.val) (a size : Nat) :
    TaskOk t (info.tcb t a size) where
  prio := fun _ => hp
  null := fun e => absurd e ht
  realTime := fun e => by cases e
  suspended := fun e => by cases e
  blocked := fun _ => rfl
  tid := fun _ => rfl
  header := fun e => by cases e

/-- The slot for a new task is not that of the null task. -/
theorem dormantSlot_ne (k : Kernel) : k.dormantSlot ≠ tidNull := by
  unfold Kernel.dormantSlot
  cases hf : List.find? _ _ with
  | none => decide
  | some t =>
      have hm := List.mem_of_find?_eq_some hf
      intro e
      simp only [Option.getD_some] at e
      rw [e] at hm
      exact absurd hm (by decide)

/-- The slot holds a dormant task, or it is 13. -/
theorem dormantSlot_dormant (k : Kernel) (h : ¬ (k.dormantSlot = 13 ∧
    (k.tcb k.dormantSlot).state ≠ .dormant)) : (k.data k.dormantSlot).state = .dormant := by
  by_contra hne
  refine h ⟨?_, hne⟩
  unfold Kernel.dormantSlot at hne ⊢
  cases hf : List.find? _ _ with
  | none => rfl
  | some t =>
      have hs := List.find?_some hf
      rw [hf] at hne
      exact absurd (of_decide_eq_true hs) hne

theorem priority2order_cases (p : Nat) :
    priority2order p = -1 ∨ p = prioNull ∨ ∃ i : Fin 5, p = order2priority i.val := by
  unfold priority2order
  split
  next e => exact Or.inr (Or.inr ⟨0, e⟩)
  split
  next e => exact Or.inr (Or.inr ⟨1, e⟩)
  split
  next e => exact Or.inr (Or.inr ⟨2, e⟩)
  split
  next e => exact Or.inr (Or.inr ⟨3, e⟩)
  split
  next e => exact Or.inr (Or.inr ⟨4, e⟩)
  split
  next e => exact Or.inr (Or.inl e)
  · exact Or.inl rfl

section New

variable {info : TaskInit} {a size : Nat} {i : Fin 5} {k₂ : Kernel} (h : Rest k L)
  (hs : (k.data t).state = .dormant) (h₂ : Sound k₂ L (insert t {k.current}) ∅)
  (hd : k₂.data = Function.update k.data t (info.tcb t a size)) (hm : k₂.mailbox = k.mailbox)
  (hp : k₂.pend = k.pend)
include h hs

/-- The running task does not get the slot of a new one. -/
theorem Rest.current_ne (ht : t ≠ tidNull) : k.current ≠ t := by
  intro e
  have := h.current (e ▸ ht)
  rw [e, hs] at this
  cases this

include h₂ hd hm hp

/-- A new task that is not above its creator waits in its queue. -/
theorem Rest.enqueueNew (ht : t ≠ tidNull) (hc : k₂.current = k.current)
    (hi : info.prio = order2priority i.val) (hle : (k.data k.current).prio ≤ info.prio) :
    ∃ k', k₂.pushTail t (.ready i) = .ok k' ∧ Rescheduled k k' L := by
  have hct := h.current_ne hs ht
  have hdt : k₂.data t = info.tcb t a size := by rw [hd, Function.update_self]
  obtain ⟨s, h1, h2, h3, h4⟩ := h₂.pushTail (i := i) (Set.mem_insert t _) ht
    (fun u hu => absurd hu (Set.notMem_empty u)) (Or.inl (by rw [hdt]; rfl))
    (readyAt_priority.mpr (by rw [hdt]; exact hi))
  have hself := h4 (Or.inr (by rw [hdt]; rfl))
  rw [hself] at h2 h3
  rw [pair_sdiff_left hct.symm] at h2
  have hother : ∀ u, u ≠ t → s.data u = k.data u := fun u hu => by
    rw [h3, Function.update_of_ne hu, hd, Function.update_of_ne hu]
  rw [← hc] at h2
  refine ⟨_, h1, _, ⟨h2, fun h0 => ?_⟩, ?_, hm, hp, fun hT => ?_⟩
  · change (s.data k₂.current).state = _
    rw [hc, hother _ hct]
    exact h.current (hc ▸ h0)
  · refine Resched.single (t := t) hother (by rw [hs]; simp) (by rw [hs]; simp) ?_ (fun e => ?_)
      fun m => Function.update_of_ne (by simp) _ _
    · change (s.data t).state ≠ _
      rw [h3, Function.update_self]
      simp
    · change (s.data t).realTime = true at e
      rw [h3, Function.update_self, hdt] at e
      cases e
  · intro j u hu
    change (s.data k₂.current).prio ≤ _
    rw [hc, hother _ hct]
    rw [Function.update_apply] at hu
    split at hu
    next e =>
      obtain rfl := QId.ready.inj e
      rcases Tasks.mem_queued.mp hu with rfl | hu
      · exact hi ▸ hle
      · exact hT j u hu
    · exact hT j u hu

/-- A new task above its creator runs at once. -/
theorem Rest.switchNew (ht : t ≠ tidNull) (h0 : k.current ≠ tidNull)
    (hi : readyAt (priority2order (k.data k.current).prio) = .ok (.ready i))
    (hlt : info.prio < (k.data k.current).prio) :
    Rescheduled k (((k₂.setCurrent t).setTaskState t .running).pushHead k.current (.ready i))
      L := by
  have hct := h.current_ne hs ht
  have hdt : k₂.data t = info.tcb t a size := by rw [hd, Function.update_self]
  have hdc : k₂.data k.current = k.data k.current := by rw [hd, Function.update_of_ne hct]
  -- the new task is set running
  obtain ⟨h3, h4⟩ := (h₂.setCurrent t).setTaskState (v := .running) (Or.inl (Set.mem_insert t _))
    (by change (k₂.data t).state ≠ _; rw [hdt]; simp [TaskInit.tcb]) (Or.inr rfl)
  change _ = Function.update k₂.data t { k₂.data t with state := .running } at h4
  have hdc3 : ((k₂.setCurrent t).setTaskState t .running).data k.current = k.data k.current := by
    rw [h4, Function.update_of_ne hct, hdc]
  -- and its creator goes to the head of its queue
  obtain ⟨h5, h6⟩ := h3.pushHead (Set.mem_insert_of_mem t rfl) h0 (Set.notMem_empty _)
    (Or.inr (by rw [hdc3]; exact h.current h0)) (by rw [hdc3]; exact hi)
  rw [pair_sdiff_right hct.symm] at h5
  have hdt6 : (((k₂.setCurrent t).setTaskState t .running).pushHead k.current (.ready i)).data t =
      { info.tcb t a size with state := .running } := by
    rw [h6, Function.update_of_ne (Ne.symm hct), h4, Function.update_self, hdt]
  have hother : ∀ u, u ≠ t → u ≠ k.current →
      (((k₂.setCurrent t).setTaskState t .running).pushHead k.current (.ready i)).data u =
        k.data u := fun u hu hu' => by
    rw [h6, Function.update_of_ne hu', h4, Function.update_of_ne hu, hd, Function.update_of_ne hu]
  have hdc6 : (((k₂.setCurrent t).setTaskState t .running).pushHead k.current
      (.ready i)).data k.current = { k.data k.current with state := .ready } := by
    rw [h6, Function.update_self, hdc3]
  have hnew : NoNewRt k.data k₂.data := NoNewRt.update hd fun e => by cases e
  refine ⟨_, ⟨h5, fun _ => ?_⟩, ⟨fun m => Function.update_of_ne (by simp) _ _, fun u hu => ?_,
    fun u hu => ?_, (hnew.trans (NoNewRt.update h4 id)).trans (NoNewRt.update h6 id)⟩, hm, hp,
    fun hT => ?_⟩
  · exact congrArg TcbData.state hdt6
  · refine hother u (fun e => ?_) fun e => ?_
    · rw [e, hs] at hu
      simp at hu
    · rw [e, h.current h0] at hu
      simp at hu
  · by_cases e : u = t
    · rw [e, hdt6] at hu
      cases hu
    · by_cases e' : u = k.current
      · rw [e', hdc6] at hu
        cases hu
      · rwa [hother u e e'] at hu
  · intro j u hu
    have hle : (k.data k.current).prio ≤ order2priority j.val := by
      rw [Function.update_apply] at hu
      split at hu
      next e =>
        rw [QId.ready.inj e]
        exact (readyAt_priority.mp hi).le
      · exact hT j u hu
    refine le_trans ?_ hle
    exact ((congrArg TcbData.prio hdt6).trans_lt hlt).le

/-- The end of `k_tsk_create`. -/
theorem Rest.startNew (ht : t ≠ tidNull) (h0 : k.current ≠ tidNull) (hc : k₂.current = k.current)
    (hi : info.prio = order2priority i.val) :
    Post (k₂.startNew t (priority2order info.prio)) fun k' => Rescheduled k k' L := by
  have hct := h.current_ne hs ht
  have hpt : (k₂.data t).prio = info.prio := by rw [hd, Function.update_self]; rfl
  have hpc : (k₂.data k₂.current).prio = (k.data k.current).prio := by
    rw [hc, hd, Function.update_of_ne hct]
  obtain ⟨-, c, -, hcq⟩ := h.running h0
  unfold Kernel.startNew
  refine Ends.ite (fun hlt => ?_) fun hlt => ?_
  · have hpo : (((k₂.setCurrent t).setTaskState t .running).data k₂.current).prio =
        (k.data k.current).prio := by
      rw [Kernel.data_setTaskState, hc, Function.update_of_ne hct, ← hpc, hc]
      rfl
    refine Ends.bind_ok (a := .ready c) ((congrArg (readyAt ∘ priority2order) hpo).trans hcq) ?_
    have hlt' : (k₂.data t).prio < (k₂.data k₂.current).prio := hlt
    rw [hpt, hpc] at hlt'
    rw [hc]
    exact h.switchNew hs h₂ hd hm hp ht h0 hcq hlt'
  · have hle : (k₂.data k₂.current).prio ≤ (k₂.data t).prio := not_lt.mp hlt
    rw [hpt, hpc] at hle
    obtain ⟨k', h3, h4⟩ := h.enqueueNew hs h₂ hd hm hp ht hc hi hle
    refine Ends.bind_ok (readyAt_priority.mpr hi) ?_
    rw [h3]
    exact h4

end New

/-- Without memory only the dormant slot has changed. -/
theorem Rest.noMemory (h : Rest k L) (ht : t ≠ tidNull) (hs : (k.data t).state = .dormant)
    (m : Mem) (e : Errno) :
    Rescheduled k ((Kernel.modifyTcb
      { k with ram1 := m.ram1, ram2 := m.ram2, errno := m.errno } t
      fun d => { d with pspBase := none }).setErrno e) L := by
  have hct := h.current_ne hs ht
  have hd := k.data_modifyTcb t fun d => { d with pspBase := none }
  have hok := h.task t
  have h' := h.toSound.modify_home (t := t) (f := fun d => { d with pspBase := none }) rfl
    (fun _ => rfl) ⟨hok.prio, hok.null, hok.realTime, hok.suspended, hok.blocked, hok.tid,
      hok.header⟩ rfl
  have hcur : (k.modifyTcb t fun d => { d with pspBase := none }).data k.current =
      k.data k.current := by rw [hd, Function.update_of_ne hct]
  refine ⟨L, Rest.frame (k := k.modifyTcb t fun d => { d with pspBase := none })
    ⟨h', fun hne => (congrArg TcbData.state hcur).trans (h.current hne)⟩ rfl rfl rfl rfl
    (fun _ => rfl) rfl, ?_, rfl, rfl, fun hT j u hu => ?_⟩
  · refine Resched.single (t := t) (fun u hu => ?_) (by rw [hs]; simp) (by rw [hs]; simp) ?_
      (NoNewRt.update hd id t) fun _ => rfl
    · exact (congrFun hd u).trans (Function.update_of_ne hu _ _)
    · refine ne_of_eq_of_ne (congrArg TcbData.state (congrFun hd t)) ?_
      rw [Function.update_self]
      change (k.data t).state ≠ _
      rw [hs]
      simp
  · exact (congrArg TcbData.prio hcur).trans_le (hT j u hu)

/-- The state in which `k_tsk_create` finds the new task. -/
theorem Rest.created (info : TaskInit) (h : Rest k L) (ht : t ≠ tidNull)
    (hs : (k.data t).state = .dormant) (hp : ∃ i : Fin 5, info.prio = order2priority i.val)
    (m : Mem) (a size : Nat) (bytes : Nat → UInt8) :
    Sound { k with
      toTasks := Tasks.modify { k.toTasks with errno := m.errno } t fun _ => info.tcb t a size
      ram1 := m.ram1, ram2 := m.ram2, bytes } L (insert t {k.current}) ∅ := by
  have h1 : Sound k L (insert t {k.current}) ∅ :=
    ⟨h.placed.hold (h.placed.not_mem (Or.inl hs)), h.task, h.pend, h.inactive, h.uart⟩
  exact (h1.modify (f := fun _ => info.tcb t a size) (Or.inl (Set.mem_insert t _))
    (TaskInit.taskOk ht hp a size) fun _ => rfl).frame rfl rfl rfl (fun _ => rfl) rfl

/-- PRIO_NULL is no ready queue. -/
theorem startNew_null (h : ¬ (k.data t).prio < (k.data k.current).prio) :
    k.startNew t (priority2order prioNull) = .error .readyIndex := by
  have h' : ¬ (k.tcb t).prio < k.cur.prio := h
  unfold Kernel.startNew
  rw [if_neg h']
  rfl

/-- **`k_tsk_create`** keeps the kernel at rest; with PRIO_NULL it does not get that far. -/
theorem Rest.kTskCreate (h : Rest k L) (h0 : k.current ≠ tidNull) (taskEntry prio stackSize : Nat) :
    Post (k.kTskCreate taskEntry prio stackSize) fun r => Rescheduled k r.1 L := by
  unfold Kernel.kTskCreate
  refine Ends.ite (fun _ => h.refused _) fun hslot => ?_
  refine Ends.ite (fun _ => h.refused _) fun hprio => ?_
  have ht := dormantSlot_ne k
  have hs := dormantSlot_dormant k hslot
  generalize k.dormantSlot = t at ht hs ⊢
  refine Ends.bind (kTskCreateNew_spec k _ t) fun r hr => ?_
  obtain ⟨k', r⟩ := r
  obtain ⟨power, k₁, ptr, -, hal, hr⟩ := hr
  obtain ⟨m, -, rfl⟩ := mpoolAlloc_eq_ok hal
  obtain ⟨-, rfl, rfl⟩ | ⟨a, -, rfl, rfl⟩ := hr
  · exact Ends.ite (fun _ => h.noMemory ht hs m _) fun he => absurd rfl he
  refine Ends.ite (fun he => absurd he (by decide)) fun _ => ?_
  have hd := Tasks.modify_data { k.toTasks with errno := m.errno } t fun _ => TaskInit.tcb
    ⟨taskEntry, if stackSize < procStackSize then procStackSize else stackSize, prio, 0⟩ t a
    (power2 power)
  rcases priority2order_cases prio with hp | rfl | ⟨i, hi⟩
  · exact absurd hp hprio
  · -- the null priority is below that of the caller
    obtain ⟨-, c, hc, -⟩ := h.running h0
    rw [startNew_null]
    · exact trivial
    · have hpt := congrArg TcbData.prio ((congrFun hd t).trans (Function.update_self _ _ _))
      have hpc := congrArg TcbData.prio ((congrFun hd k.current).trans
        (Function.update_of_ne (h.current_ne hs ht) _ _))
      intro hlt
      have := (hpt.symm.trans_lt hlt).trans_eq (hpc.trans hc)
      exact (order2priority_lt_null c).not_gt this
  · exact Ends.bind (h.startNew hs (h.created ⟨taskEntry, _, prio, 0⟩ ht hs ⟨i, hi⟩ m a
      (power2 power) _) hd rfl rfl ht h0 rfl hi) fun k' hk' => hk'

/-! ## 3. `k_tsk_set_prio` -/

/-- `k_tsk_set_prio(taskId, prio)` would raise a task above its caller that is strictly inside its
    ready queue. -/
def Kernel.PromotesInside (k : Kernel) (taskId prio : Nat) : Prop :=
  ∃ t : Tid, t.val = taskId ∧ (k.tcb t).realTime = false ∧ (k.tcb t).state = .ready ∧
    ¬ (k.cur.priv = 0 ∧ (k.tcb t).priv = 1) ∧ prio ∈ [high, medium, low, lowest] ∧
    prio ≠ (k.tcb t).prio ∧ prio < k.cur.prio ∧
    ∃ i : Fin 5, (k.tcb t).prio = order2priority i.val ∧ ¬ AtEnd k.toTasks (.ready i) t

instance (k : Kernel) (taskId prio : Nat) : Decidable (k.PromotesInside taskId prio) := by
  unfold Kernel.PromotesInside
  infer_instance

theorem Kernel.popTask_post {q : QId} {P : Tasks Tid QId → Prop}
    (h : Post (k.toTasks.popTask t q) fun r => P r.1) :
    Post (k.popTask t q) fun k' => ∃ s, k' = { k with toTasks := s } ∧ P s :=
  Ends.bind h fun r hr => ⟨r.1, rfl, hr⟩

/-- What is left when `t`, with the priority `prio`, was taken out of the ready queue `i`. -/
structure TakenOut (k : Kernel) (L : Lists) (t : Tid) (prio : Nat) (i : Fin 5) (s : Tasks Tid QId)
    (L' : Lists) (X : Set Tid) : Prop where
  sound : Sound { k with toTasks := s } L' (insert t {k.current}) X
  stale : ∀ u ∈ X, u = t
  atEnd : (k.data t).state = .running ∨ AtEnd k.toTasks (.ready i) t → X = ∅
  sub : ∀ j u, u ∈ L' (.ready j) → u ∈ L (.ready j)
  waiting : ∀ m, L' (.waiting m) = L (.waiting m)
  data : ∃ v, (v = .ready ∨ v = .running) ∧
    s.data = Function.update k.data t { k.data t with prio, state := v }

/-- What the checks of `k_tsk_set_prio` leave. -/
structure PrioAccepted (k : Kernel) (t : Tid) (prio : Nat) : Prop where
  ne_null : t ≠ tidNull
  below : (k.data t).prio ≠ prioNull
  queue : ∃ i : Fin 5, prio = order2priority i.val
  state : (k.data t).state ≠ .dormant
  priv : ¬ (k.cur.priv = 0 ∧ (k.tcb t).priv = 1)
  realTime : (k.data t).realTime = true → prio = prioRt
  other : (k.data t).realTime = false → prio ≠ prioRt

theorem Kernel.kTskSetPrio_spec (k : Kernel) (taskId prio : Nat) :
    Post (k.kTskSetPrio taskId prio) fun r => (r.2 = rtxErr ∧ ∃ e, r.1 = k.setErrno e) ∨
      ∃ t : Tid, t.val = taskId ∧ PrioAccepted k t prio ∧
        k.changePrio t t.val prio = .ok r.1 := by
  unfold Kernel.kTskSetPrio
  refine Ends.ite (fun _ => Or.inl ⟨rfl, _, rfl⟩) fun hid => ?_
  obtain ⟨hid, hord⟩ := not_or.mp hid
  have hlt : taskId < 16 := by
    unfold maxTasks at hid
    omega
  refine Ends.bind_ok (a := (⟨taskId, hlt⟩ : Tid)) (by unfold tcbAt; rw [dif_pos hlt]) ?_
  refine Ends.ite (fun _ => Or.inl ⟨rfl, _, rfl⟩) fun hnull => ?_
  refine Ends.ite (fun _ => Or.inl ⟨rfl, _, rfl⟩) fun hperm => ?_
  refine Ends.ite (fun _ => Or.inl ⟨rfl, _, rfl⟩) fun hrt => ?_
  refine Ends.ite (fun _ => Or.inl ⟨rfl, _, rfl⟩) fun hrt' => ?_
  obtain ⟨hpriv, hperm⟩ := not_or.mp hperm
  obtain ⟨hzero, hperm⟩ := not_or.mp hperm
  have hp : ∃ i : Fin 5, prio = order2priority i.val := by
    rcases priority2order_cases prio with e | e | e
    · rw [e] at hord
      simp at hord
    · exact absurd (Or.inr e) hnull
    · exact e
  refine Ends.bind Ends.returned fun k' hk' => Or.inr ⟨⟨taskId, hlt⟩, rfl, ?_, hk'⟩
  exact {
    ne_null := fun e => hzero ⟨fun e => hnull (Or.inr e), congrArg Fin.val e⟩
    below := (not_or.mp hnull).1
    queue := hp
    state := fun e => hperm (Or.inr e)
    priv := hpriv
    realTime := fun e => not_not.mp fun hne => hrt ⟨e, hne⟩
    other := fun e hr => hrt' ⟨e, hr⟩ }

section SetPrio

variable (h : Rest k L) (h0 : k.current ≠ tidNull) (ht : t ≠ tidNull) {prio : Nat}
  (hrt : (k.data t).realTime = false) (hp : ∃ i : Fin 5, prio = order2priority i.val)
include h

/-- A task that stays where it is gets its priority: it is blocked, or it is running, or the
    priority is its own. -/
theorem Rest.setPrio (ht : t ≠ tidNull) (hp : ∃ i : Fin 5, prio = order2priority i.val)
    (hrt : (k.data t).realTime = true → prio = prioRt)
    (hs : (k.data t).state = .ready → prio = (k.data t).prio) : Rest (k.setPrio t prio) L := by
  have hd := k.data_modifyTcb t fun d => { d with prio }
  refine ⟨h.toSound.modify_home (t := t) (f := fun d => { d with prio }) rfl hs
    ((h.task t).setPrio ht hp hrt) rfl, fun hne => ?_⟩
  have := congrArg TcbData.state (congrFun hd k.current)
  refine this.trans ?_
  rw [Function.update_apply]
  split
  next e => exact (congrArg (fun u => (k.data u).state) e.symm).trans (h.current hne)
  · exact h.current hne

include ht hrt hp

/-- A task with its new priority is taken out of its old queue. A task that has exited is in none:
    then nothing is taken, or `pop_task` runs off the end of the list. -/
theorem Rest.takeOut (hct : t ≠ k.current)
    (hs : (k.data t).state = .ready ∨ (k.data t).state = .running) {i : Fin 5}
    (hi : (k.data t).prio = order2priority i.val) :
    Post ((k.toTasks.modify t fun d => { d with prio }).popTask t (.ready i)) fun r =>
      ∃ L' X, TakenOut k L t prio i r.1 L' X := by
  have hok := (h.task t).setPrio ht hp fun e => by rw [hrt] at e; cases e
  rcases hs with hs | hs
  · -- a ready task is in its queue
    obtain ⟨j, hj, hmem⟩ := h.placed.mem_of_ready ht (fun e => hct e) hs
    obtain rfl : j = i := by
      have := (readyAt_priority.mp hj).symm.trans hi
      exact le_antisymm ((order2priority_le j i).mp this.le) ((order2priority_le i j).mp this.ge)
    obtain ⟨s, v, h1, h2, h3, h6, h7⟩ :=
      h.toSound.popTask hmem (f := fun d => { d with prio }) rfl hok rfl
    rw [h1]
    have hsub : ∀ j' u, u ∈ Function.update L (.ready j) ((L (.ready j)).erase t) (.ready j') →
        u ∈ L (.ready j') := by
      intro j' u hu
      rw [Function.update_apply] at hu
      split at hu
      next e => rw [e]; exact List.mem_of_mem_erase hu
      · exact hu
    have hwait : ∀ m, Function.update L (.ready j) ((L (.ready j)).erase t) (.waiting m) =
        L (.waiting m) := fun m => Function.update_of_ne (by simp) _ _
    have hv : v = .ready ∨ v = .running := Or.inl (h6.elim id fun e => e.trans hs)
    by_cases hend : AtEnd k.toTasks (.ready j) t
    · exact ⟨_, ∅, h3 hend, fun u hu => absurd hu (Set.notMem_empty u), fun _ => rfl, hsub, hwait,
        v, hv, h7⟩
    · refine ⟨_, _, h2, fun u hu => hu.resolve_right (Set.notMem_empty u), fun hor => ?_, hsub,
        hwait, v, hv, h7⟩
      rcases hor with e | e
      · rw [hs] at e
        cases e
      · exact absurd e hend
  · -- a task that has exited
    have hout := h.placed.not_mem (t := t) (Or.inr (Or.inl hs))
    have hheld : Sound k L (insert t {k.current}) ∅ :=
      ⟨h.placed.hold hout, h.task, h.pend, h.inactive, h.uart⟩
    have hmod := hheld.modify (t := t) (f := fun d => { d with prio }) (Or.inl (Set.mem_insert t _))
      hok fun _ => hrt
    rcases (h.placed.rep.modify t fun d => { d with prio }).popTask_absent (hout (.ready i)) with
      ⟨r, hr, -⟩ | ⟨hr, -⟩
    · rw [hr]
      refine ⟨L, ∅, hmod, fun u hu => absurd hu (Set.notMem_empty u), fun _ => rfl,
        fun _ _ => id, fun _ => rfl, .running, Or.inr rfl, ?_⟩
      rw [← hs]
      exact Tasks.modify_data k.toTasks t fun d => { d with prio }
    · rw [hr]
      exact trivial

/-- Raising a task above its caller, unless it is strictly inside its queue. -/
theorem Rest.promote (h0 : k.current ≠ tidNull) (hct : t ≠ k.current)
    (hs : (k.data t).state = .ready ∨ (k.data t).state = .running)
    (hlt : prio < (k.data k.current).prio)
    (hend : ∀ i : Fin 5, (k.data t).prio = order2priority i.val →
      (k.data t).state = .running ∨ AtEnd k.toTasks (.ready i) t) :
    Post (k.promote t prio) fun k' => Moved k k' L := by
  obtain ⟨i, hi⟩ := (h.task t).prio ht
  obtain ⟨hrun, c, hc, hcq⟩ := h.running h0
  unfold Kernel.promote
  refine Ends.bind_ok (readyAt_priority.mpr hi) ?_
  refine Ends.bind (Kernel.popTask_post (P := fun s => ∃ L' X, TakenOut k L t prio i s L' X)
    (h.takeOut ht hrt hp hct hs hi)) fun k₂ hk₂ => ?_
  obtain ⟨s, rfl, L₂, X₂, h₂, -, hX, hsub, hwait, v, hv, hd⟩ := hk₂
  rw [hX (hend i hi)] at h₂
  have hdt : s.data t = { k.data t with prio, state := v } := by rw [hd, Function.update_self]
  have hdc : s.data k.current = k.data k.current := by rw [hd, Function.update_of_ne hct.symm]
  have hcq' : readyAt (priority2order (s.data k.current).prio) = .ok (.ready c) := by
    rw [hdc]
    exact hcq
  -- the caller goes to the head of its queue
  refine Ends.bind_ok hcq' ?_
  obtain ⟨h3, h4⟩ := (h₂.setCurrent t).pushHead (t := k.current) (i := c)
    (Set.mem_insert_of_mem t rfl) h0 (Set.notMem_empty _)
    (Or.inr ((congrArg TcbData.state hdc).trans hrun)) hcq'
  rw [pair_sdiff_right hct] at h3
  have hdt4 := (congrFun h4 t).trans (Function.update_of_ne hct _ _)
  -- and the raised task runs
  obtain ⟨h5, h6⟩ := h3.setTaskState (v := .running) (Or.inl rfl) (by
    rw [hdt4]
    refine ne_of_eq_of_ne (congrArg TcbData.state hdt) ?_
    rcases hv with rfl | rfl <;> simp) (Or.inr rfl)
  have hdt6 := (congrFun h6 t).trans (Function.update_self _ _ _)
  have hstill := Still.update hd (Or.inr ⟨hs.imp_right Or.inl, hv.elim (by rintro rfl; simp)
    (by rintro rfl; simp)⟩) hwait
  refine ⟨_, ⟨h5, fun _ => congrArg TcbData.state hdt6⟩, fun hT j u hu => ?_,
    ((NoNewRt.update hd id).trans (NoNewRt.update h4 id)).trans (NoNewRt.update h6 id),
    (hstill.trans (Still.update h4 (Or.inr ⟨Or.inr (Or.inl ((congrArg TcbData.state hdc).trans
      hrun)), by simp⟩) fun m => Function.update_of_ne (by simp) _ _)).trans
        (Still.update h6 (Or.inr ⟨?_, by simp⟩) fun _ => rfl)⟩
  rotate_left
  · rw [hdt4]
    exact hv.imp (congrArg TcbData.state hdt).trans fun e =>
      Or.inl ((congrArg TcbData.state hdt).trans e)
  have hle : (k.data k.current).prio ≤ order2priority j.val := by
    rw [Function.update_apply] at hu
    split at hu
    next e =>
      obtain rfl := QId.ready.inj e
      exact hc.le
    · exact hT j u (hsub j u hu)
  refine le_trans ?_ hle
  have h7 := congrArg TcbData.prio (hdt6.trans (congrArg (fun d : TcbData =>
    { d with state := TaskState.running }) (hdt4.trans hdt)))
  exact (h7.trans_lt hlt).le

/-- Moving another task to the queue of its new priority, which is not above the caller's. -/
theorem Rest.requeue (hct : t ≠ k.current)
    (hs : (k.data t).state = .ready ∨ (k.data t).state = .running)
    (hle : (k.data k.current).prio ≤ prio) :
    Post (k.requeue t prio) fun k' => Moved k k' L := by
  obtain ⟨i, hi⟩ := (h.task t).prio ht
  obtain ⟨p, hpi⟩ := hp
  unfold Kernel.requeue
  refine Ends.bind_ok (readyAt_priority.mpr hi) ?_
  refine Ends.bind (Kernel.popTask_post (P := fun s => ∃ L' X, TakenOut k L t prio i s L' X)
    (h.takeOut ht hrt ⟨p, hpi⟩ hct hs hi)) fun k₂ hk₂ => ?_
  obtain ⟨s, rfl, L₂, X₂, h₂, hX, -, hsub, hwait, v, hv, hd⟩ := hk₂
  have hdt : s.data t = { k.data t with prio, state := v } := by rw [hd, Function.update_self]
  have hpq : readyAt (priority2order prio) = .ok (.ready p) := readyAt_priority.mpr hpi
  refine Ends.bind_ok hpq ?_
  obtain ⟨s', h3, h4, h5, h6⟩ := h₂.pushTail (t := t) (i := p) (Set.mem_insert t _) ht hX
    (by change (s.data t).state = _ ∨ (s.data t).state = _ ∨ (s.data t).state = _
        rw [hdt]
        exact hv.imp_right Or.inl)
    (by change readyAt (priority2order (s.data t).prio) = _
        rw [hdt]
        exact hpq)
  have hself := h6 (Or.inl (by change (s.data t).realTime = _; rw [hdt]; exact hrt))
  rw [hself] at h4 h5
  refine Ends.intro_ok h3 ?_
  rw [pair_sdiff_left hct] at h4
  have hdc : s'.data k.current = k.data k.current := by
    refine (congrFun h5 k.current).trans ?_
    rw [Function.update_of_ne hct.symm]
    change s.data k.current = _
    rw [hd, Function.update_of_ne hct.symm]
  have hstill := Still.update hd (Or.inr ⟨hs.imp_right Or.inl, hv.elim (by rintro rfl; simp)
    (by rintro rfl; simp)⟩) hwait
  refine ⟨_, ⟨h4, fun h0 => (congrArg TcbData.state hdc).trans (h.current h0)⟩,
    fun hT j u hu => ?_, (NoNewRt.update hd id).trans (NoNewRt.update h5 id),
    hstill.trans (Still.update h5 (Or.inr ⟨?_, by simp⟩) fun m =>
      Function.update_of_ne (by simp) _ _)⟩
  rotate_left
  · exact hv.imp (congrArg TcbData.state hdt).trans fun e =>
      Or.inl ((congrArg TcbData.state hdt).trans e)
  refine (congrArg TcbData.prio hdc).trans_le ?_
  rw [Function.update_apply] at hu
  split at hu
  next e =>
    obtain rfl := QId.ready.inj e
    rcases Tasks.mem_queued.mp hu with rfl | hu
    · exact hpi ▸ hle
    · exact hT j u (hsub j u hu)
  · exact hT j u (hsub j u hu)

omit ht hrt

/-- Lowering the caller: the head of the highest ready queue runs if it is not below. -/
theorem Rest.demoteSelf (h0 : k.current ≠ tidNull) (hrt : (k.data k.current).realTime = false) :
    Post (k.demoteSelf prio) fun k' => Moved k k' L := by
  obtain ⟨p, hpi⟩ := hp
  have hrun := h.current h0
  have hset := h.setPrio h0 ⟨p, hpi⟩ (fun e => by rw [hrt] at e; cases e)
    (fun e => by rw [hrun] at e; cases e)
  have hd := k.data_modifyTcb k.current fun d => { d with prio }
  have hdc := (congrFun hd k.current).trans (Function.update_self _ _ _)
  have hkind : NoNewRt k.data (k.setPrio k.current prio).data := NoNewRt.update hd id
  have hstill : Still k.data (k.setPrio k.current prio).data L L :=
    Still.update hd (Or.inl ⟨rfl, rfl⟩) fun _ => rfl
  unfold Kernel.demoteSelf
  rcases h.placed.firstReady with ⟨hf, hL⟩ | ⟨i, u, l, hf, hL, hh, hj⟩
  · -- no task is ready
    have hhigh : k.highestTask = tidNull := by
      unfold Kernel.highestTask
      rw [hf]
    have hnull : ((k.setPrio k.current prio).data tidNull).prio = prioNull := by
      refine (congrArg TcbData.prio (congrFun hd tidNull)).trans ?_
      rw [Function.update_of_ne (Ne.symm h0)]
      exact ((h.task tidNull).null rfl).1
    refine Ends.ite (fun hle => absurd hle (not_le.mpr ?_)) fun _ =>
      ⟨L, hset, fun _ j u hu => ?_, hkind, hstill⟩
    · rw [hhigh]
      exact (hpi ▸ order2priority_lt_null p).trans_eq hnull.symm
    · rw [hL j] at hu
      exact absurd hu List.not_mem_nil
  · have hmem : u ∈ L (.ready i) := hL ▸ List.mem_cons_self
    have huc : u ≠ k.current := fun e => (h.placed.not_held hmem).1 e
    have hu0 := (h.placed.not_held hmem).2
    have hhigh : k.highestTask = u := by
      unfold Kernel.highestTask
      rw [hf]
      simp only [hh, Option.getD_some]
    have hui := readyAt_priority.mp ((h.placed.of_mem hmem).2 i rfl)
    have hdu := (congrFun hd u).trans (Function.update_of_ne huc _ _)
    have hfirst : ∀ j w, w ∈ L (.ready j) → i ≤ j := fun j w hw => by
      by_contra hlt
      rw [hj j (not_le.mp hlt)] at hw
      exact absurd hw List.not_mem_nil
    rw [hhigh]
    refine Ends.ite (fun hle => ?_) fun hle =>
      ⟨L, hset, fun _ j w hw => ?_, hkind, hstill⟩
    · -- the head of the highest queue runs
      have hle' : order2priority i.val ≤ prio :=
        (hui.symm.trans (congrArg TcbData.prio hdu).symm).trans_le hle
      have hiq : readyAt (priority2order ((k.setPrio k.current prio).data u).prio) =
          .ok (.ready i) := readyAt_priority.mpr ((congrArg TcbData.prio hdu).trans hui)
      refine Ends.bind_ok hiq ?_
      obtain ⟨h3, h4⟩ := (hset.toSound.setCurrent u).popHead hL
      change _ = Function.update (k.setPrio k.current prio).data u _ at h4
      have hdc4 := ((congrFun h4 k.current).trans (Function.update_of_ne huc.symm _ _)).trans hdc
      -- and the caller goes to the tail of its new queue
      have hpq : readyAt (priority2order prio) = .ok (.ready p) := readyAt_priority.mpr hpi
      refine Ends.bind_ok hpq ?_
      obtain ⟨s, h5, h6, h7, h8⟩ := h3.pushTail (t := k.current) (i := p)
        (Set.mem_insert_of_mem u rfl) h0 (fun w hw => absurd hw (Set.notMem_empty w))
        (Or.inr (Or.inl ((congrArg TcbData.state hdc4).trans hrun)))
        ((congrArg (readyAt ∘ priority2order ∘ TcbData.prio) hdc4).trans hpq)
      have hself := h8 (Or.inl ((congrArg TcbData.realTime hdc4).trans hrt))
      rw [hself] at h6 h7
      refine Ends.bind_ok h5 ?_
      rw [show (k.setPrio k.current prio).current = k.current from rfl,
        pair_sdiff_right huc] at h6
      have hdu7 := ((congrFun h7 u).trans (Function.update_of_ne huc _ _)).trans
        ((congrFun h4 u).trans (Function.update_self _ _ _))
      obtain ⟨h9, h10⟩ := h6.setTaskState (v := .running) (Or.inl rfl)
        (ne_of_eq_of_ne (congrArg TcbData.state hdu7) (by simp [QId.state])) (Or.inr rfl)
      have hdu10 := (congrFun h10 u).trans (Function.update_self _ _ _)
      refine ⟨_, ⟨h9, fun _ => congrArg TcbData.state hdu10⟩, fun _ j w hw => ?_,
        ((hkind.trans (NoNewRt.update h4 id)).trans (NoNewRt.update h7 id)).trans
          (NoNewRt.update h10 id), ((hstill.trans (Still.update h4 (Or.inr ⟨Or.inl ?_, ?_⟩)
            fun m => Function.update_of_ne (by simp) _ _)).trans (Still.update h7 (Or.inr
              ⟨Or.inr (Or.inl ((congrArg TcbData.state hdc4).trans hrun)), by simp⟩) fun m =>
                Function.update_of_ne (by simp) _ _)).trans
                  (Still.update h10 (Or.inr ⟨?_, by simp⟩) fun _ => rfl)⟩
      rotate_left
      · exact (congrArg TcbData.state hdu).trans (h.placed.state_of_mem hmem)
      · simp [QId.state]
      · exact Or.inr (Or.inl (congrArg TcbData.state hdu7))
      have hprio := congrArg TcbData.prio (hdu10.trans (congrArg (fun d : TcbData =>
        { d with state := TaskState.running }) (hdu7.trans (congrArg (fun d : TcbData =>
          { d with state := TaskState.running }) hdu))))
      refine (hprio.trans hui).trans_le ?_
      rw [Function.update_apply] at hw
      split at hw
      next e =>
        obtain rfl := QId.ready.inj e
        exact hpi ▸ hle'
      · rw [Function.update_apply] at hw
        split at hw
        next e => rw [QId.ready.inj e]
        · exact (order2priority_le i j).mpr (hfirst j w hw)
    · -- the caller is still above
      refine (congrArg TcbData.prio hdc).trans_le ?_
      have hlt : prio < order2priority i.val :=
        (not_le.mp hle).trans_eq ((congrArg TcbData.prio hdu).trans hui)
      exact hlt.le.trans ((order2priority_le i j).mpr (hfirst j w hw))

omit hp

/-- A new priority for a task that stays where it is leaves no ready task above the running one. -/
theorem Rest.reprioritised (ht : t ≠ tidNull) (hp : ∃ i : Fin 5, prio = order2priority i.val)
    (hrt : (k.data t).realTime = true → prio = prioRt)
    (hs : (k.data t).state = .ready ∨ t = k.current → prio = (k.data t).prio) :
    Moved k (k.setPrio t prio) L := by
  refine ⟨L, h.setPrio ht hp hrt fun e => hs (Or.inl e), fun hT j u hu => ?_,
    NoNewRt.update (k.data_modifyTcb t _) id,
    Still.update (k.data_modifyTcb t _) (Or.inl ⟨rfl, rfl⟩) fun _ => rfl⟩
  refine le_trans (le_of_eq ?_) (hT j u hu)
  refine (congrArg TcbData.prio (congrFun (k.data_modifyTcb t _) k.current)).trans ?_
  rw [Function.update_apply]
  split
  next e => exact (hs (Or.inr e.symm)).trans (by rw [e])
  · rfl

/-- What `k_tsk_set_prio` does to the task `t` when its arguments are accepted. -/
theorem Rest.changePrio (h0 : k.current ≠ tidNull) (ht : t ≠ tidNull)
    (hp : ∃ i : Fin 5, prio = order2priority i.val) (hd : (k.data t).state ≠ .dormant)
    (hpriv : ¬ (k.cur.priv = 0 ∧ (k.tcb t).priv = 1))
    (hrt : (k.data t).realTime = true → prio = prioRt)
    (hrt' : (k.data t).realTime = false → prio ≠ prioRt)
    (hin : ¬ k.PromotesInside t.val prio) :
    Post (k.changePrio t t.val prio) fun k' => Moved k k' L := by
  have hrun := h.current h0
  have htid : k.cur.tid = t.val ↔ k.current = t := by
    have := (h.task k.current).tid (by rw [hrun]; simp)
    rw [show k.cur.tid = k.current.val from this]
    exact Fin.val_inj
  unfold Kernel.changePrio
  by_cases hb : (k.tcb t).state = .blkRecv ∨ (k.tcb t).state = .blkSend
  · -- a blocked task has its priority at once
    have hrtf : (k.data t).realTime = false := (h.task t).blocked hb.symm
    have hdt := (congrFun (k.data_modifyTcb t fun d => { d with prio }) t).trans
      (Function.update_self _ _ _)
    simp only [hb, if_true]
    refine Ends.ite (fun e => ?_) fun _ => ?_
    · have := (congrArg TcbData.realTime hdt).symm.trans e
      rw [show ({ k.data t with prio } : TcbData).realTime = false from hrtf] at this
      cases this
    refine Ends.ite (fun _ => ?_) fun e => absurd (congrArg TcbData.prio hdt) e
    refine h.reprioritised ht hp hrt fun e => ?_
    rcases e with e | rfl
    · rw [show (k.tcb t).state = .ready from e] at hb
      simp at hb
    · rw [show (k.tcb k.current).state = .running from hrun] at hb
      simp at hb
  · simp only [hb, if_false]
    refine Ends.ite (fun e => ?_) fun e => ?_
    · -- a real-time task has no other priority
      exact h.reprioritised ht hp hrt fun _ => (hrt e).trans ((h.task t).realTime e).symm
    have hrtf : (k.data t).realTime = false := Bool.eq_false_iff.mpr e
    refine Ends.ite (fun _ => h.moved) fun hne => ?_
    have hstate := (h.task t).movable hd hb hrtf
    refine Ends.ite (fun hc => ?_) fun hc => ?_
    · -- above the caller
      have hct : t ≠ k.current := fun e => hc.2 (htid.mpr e.symm)
      refine h.promote ht hrtf hp h0 hct hstate hc.1 fun i hi => ?_
      rcases hstate with hst | hst
      · refine Or.inr (not_not.mp fun hend => hin ⟨t, rfl, hrtf, hst, hpriv, ?_, fun e =>
          hne e.symm, hc.1, i, hi, hend⟩)
        obtain ⟨p, rfl⟩ := hp
        have := hrt' hrtf
        clear * - this
        revert p
        decide
      · exact Or.inl hst
    refine Ends.ite (fun hc' => ?_) fun hc' => ?_
    · -- the caller itself
      obtain rfl := htid.mp hc'
      refine Ends.ite (fun _ => h.demoteSelf hp h0 hrtf) fun _ => h.moved
    · refine h.requeue ht hrtf hp (fun e => hc' (htid.mpr e.symm)) hstate ?_
      exact not_lt.mp fun hlt => hc ⟨hlt, hc'⟩

/-- **`k_tsk_set_prio`** keeps the kernel at rest unless it raises a task that is strictly inside
    its ready queue. -/
theorem Rest.kTskSetPrio (h0 : k.current ≠ tidNull) {taskId : Nat}
    (hin : ¬ k.PromotesInside taskId prio) :
    Post (k.kTskSetPrio taskId prio) fun r => Moved k r.1 L := by
  refine (k.kTskSetPrio_spec taskId prio).imp fun r hr => ?_
  obtain ⟨-, e, he⟩ | ⟨t, rfl, hacc, hk⟩ := hr
  · rw [he]
    exact (h.refused e).moved
  · exact (h.changePrio h0 hacc.ne_null hacc.queue hacc.state hacc.priv hacc.realTime hacc.other
      hin).of_ok hk

end SetPrio

/-! ## 4. `k_tsk_exit`, `k_rt_tsk_set` and `k_rt_tsk_susp` -/

/-- What is left when the caller has given up the processor: the kernel at rest, the highest ready
    task running, and no message moved since the tasks were `d`. -/
def Switched (d : Tid → TcbData) (L : Lists) (k' : Kernel) : Prop :=
  ∃ L', Rest k' L' ∧ Top k' L' ∧ Still d k'.data L L'

theorem Switched.trans {d d' : Tid → TcbData} (h : Still d d' L L') (h' : Switched d' L' k') :
    Switched d L k' := by
  obtain ⟨L'', h1, h2, h3⟩ := h'
  exact ⟨L'', h1, h2, h.trans h3⟩

theorem Sound.switched (h : Sound k L ∅ ∅) : Switched k.data L k.runScheduled := by
  obtain ⟨s, t, L', h1, h2, h3, h4⟩ := h.runScheduled
  rw [h1]
  exact ⟨L', h2, h3, h4.still⟩

theorem Rest.kTskExit (h : Rest k L) : Switched k.data L k.kTskExit := h.drop.switched

/-- **`k_rt_tsk_set`** makes its caller a real-time task. -/
theorem Rest.kRtTskSet (h : Rest k L) (h0 : k.current ≠ tidNull) (hp : k.pend k.current = none)
    (tv : Timeval) :
    Post (k.kRtTskSet tv) fun r => (r.2 = rtxErr ∧ ∃ e, r.1 = k.setErrno e) ∨
      Switched k.data L r.1 := by
  unfold Kernel.kRtTskSet
  refine Ends.ite (fun _ => Or.inl ⟨rfl, _, rfl⟩) fun _ => ?_
  refine Ends.ite (fun _ => Or.inl ⟨rfl, _, rfl⟩) fun _ => ?_
  have hok := h.task k.current
  have hrun := h.current h0
  set f : TcbData → TcbData := fun d => { d with
    realTime := true
    tskPeriod := (tv.sec * 1000000 + tv.usec) % 2 ^ 32 / 500
    tskDeadline := add32 (add32 k.timerCount 1) ((tv.sec * 1000000 + tv.usec) % 2 ^ 32 / 500)
    prio := prioRt
    state := .ready }
  have h1 := h.toSound.modify (t := k.current) (f := f) (Or.inl rfl)
    ⟨fun _ => ⟨0, rfl⟩, fun e => absurd e h0, fun _ => rfl, fun e => (by cases e),
      fun e => (by simp [f] at e), fun _ => hok.tid (by rw [hrun]; simp),
      fun e => (by cases e)⟩ (fun e => absurd hp e)
  have hdc := (congrFun (k.data_modifyTcb k.current f) k.current).trans (Function.update_self _ _ _)
  obtain ⟨s, h2, h3, h4, h5⟩ := h1.pushTail (t := k.current) (i := 0) rfl h0
    (fun u hu => absurd hu (Set.notMem_empty u)) (Or.inl (congrArg TcbData.state hdc))
    (readyAt_priority.mpr (congrArg TcbData.prio hdc))
  have hself := h5 (Or.inr (congrArg TcbData.state hdc))
  rw [hself, Set.sdiff_self] at h3
  rw [hself] at h4
  have hset : Still k.data (k.modifyTcb k.current f).data L L :=
    Still.update (k.data_modifyTcb k.current f) (Or.inr ⟨Or.inr (Or.inl hrun), by simp [f]⟩)
      fun _ => rfl
  refine Ends.bind_ok (a := .ready 0) rfl (Ends.bind_ok h2 (Or.inr (Switched.trans
    (hset.trans (Still.update h4 (Or.inr ⟨Or.inl (congrArg TcbData.state hdc), ?_⟩) ?_))
    h3.switched)))
  · simp
  · exact fun m => Function.update_of_ne (by simp) _ _

/-- **`k_rt_tsk_susp`** lets its caller sleep until its next period. -/
theorem Rest.kRtTskSusp (h : Rest k L) :
    Post k.kRtTskSusp fun r => (r.2 = rtxErr ∧ ∃ e, r.1 = k.setErrno e) ∨
      Switched k.data L r.1 := by
  unfold Kernel.kRtTskSusp
  refine Ends.ite (fun _ => Or.inl ⟨rfl, _, rfl⟩) fun hrt => ?_
  have hrt' : (k.data k.current).realTime = true := not_not.mp (fun e => hrt (Bool.eq_false_iff.mpr e))
  have hok := h.task k.current
  have h0 : k.current ≠ tidNull := fun e => by
    rw [(hok.null e).2.1] at hrt'
    cases hrt'
  have hrun := h.current h0
  set k₁ := k.setTaskState k.current .suspended
  set f : TcbData → TcbData := fun d => { d with
    tskDeadline := k₁.nextDeadline d.tskDeadline d.tskPeriod }
  have h1 := h.toSound.modify (t := k.current) (f := fun d => f { d with state := .suspended })
    (Or.inl rfl) ⟨hok.prio, fun e => absurd e h0, hok.realTime, fun _ => hrt',
      fun e => (by simp [f] at e), fun _ => hok.tid (by rw [hrun]; simp),
      fun e => (by cases e)⟩ (fun e => (h.pend _ e).2)
  have hdc := (congrFun (k.data_modifyTcb k.current fun d => f { d with state := .suspended })
    k.current).trans (Function.update_self _ _ _)
  obtain ⟨s, h2, h3, h4⟩ := h1.pushTail_keep (t := k.current) (q := .suspend) rfl h0
    (fun u hu => absurd hu (Set.notMem_empty u)) (congrArg TcbData.state hdc) (Or.inr rfl)
    (fun m e => by cases e)
  have hk : k₁.modifyTcb k₁.current f =
      k.modifyTcb k.current fun d => f { d with state := .suspended } :=
    k.modifyTcb_modifyTcb k.current (fun d => { d with state := .suspended }) f
  change Ends ((k₁.modifyTcb k₁.current f).pushTail k.current .suspend >>= _) _ _
  rw [hk]
  rw [Set.sdiff_self] at h3
  refine Ends.bind_ok h2 (Or.inr (Switched.trans (Still.update (h4.trans (k.data_modifyTcb
    k.current fun d => f { d with state := .suspended })) (Or.inr ⟨Or.inr (Or.inl hrun), ?_⟩) ?_)
    h3.switched))
  · simp [f]
  · exact fun m => Function.update_of_ne (by simp) _ _

end Rtx
