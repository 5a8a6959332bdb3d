/-
  File:      Rtx/Kern/Steady.lean
  Subject:   What the events leave alone, in any state.

  `Steady k k'`: no TCB differs but in its state, its priority and the message it sends, no task
  has become DORMANT, and neither IRAM2 nor the tick count has changed. Most events are steady. The
  others write what their names say and are steady behind it: `k_tsk_create` fills in a TCB,
  `k_rt_tsk_set` and `k_rt_tsk_susp` write the period and the deadline of their caller, the timer
  interrupt sets the tick count and counts the task it switches to.
-/
import Rtx.Kern.Faults

namespace Rtx

open Lib

variable {k k₀ k₁ k' : Kernel} {t : Tid}

/-! ## 1. The relation -/

/-- A TCB but for its state, its priority and the message it sends. -/
def TcbData.body (d : TcbData) : TcbData :=
  { d with state := .dormant, prio := prioRt, messageHeader := none }

/-- The TCB `x` has the body of `d`, and it is not DORMANT unless `d` is. -/
def TcbData.Follows (d x : TcbData) : Prop :=
  x.body = d.body ∧ (d.state ≠ .dormant → x.state ≠ .dormant)

/-- The bodies of the TCBs, IRAM2 and the tick count are the same, and the tasks that exist. -/
structure Steady (k k' : Kernel) : Prop where
  links : k'.toTasks.Guarded (fun _ => True) fun t x => (k.data t).Follows x
  ram2 : k'.ram2 = k.ram2
  timerCount : k'.timerCount = k.timerCount

theorem follows_closed (d : Tid → TcbData) :
    Tasks.Closed (fun _ => True) fun t x => (d t).Follows x := by
  rintro t x v - hv ⟨h1, -⟩
  refine ⟨h1, fun _ => ?_⟩
  rcases hv with rfl | rfl <;> simp

theorem leads_trivial {τ : Type} (v : Option τ) : Tasks.Leads (fun _ => True) v :=
  fun _ _ => True.intro

theorem Steady.body (h : Steady k k') (t : Tid) : (k'.data t).body = (k.data t).body :=
  (h.links.data t).1

theorem Steady.alive (h : Steady k k') (t : Tid) (hs : (k.data t).state ≠ .dormant) :
    (k'.data t).state ≠ .dormant := (h.links.data t).2 hs

theorem Steady.of_follows (hb : ∀ t, (k.data t).Follows (k'.data t)) (h2 : k'.ram2 = k.ram2)
    (hc : k'.timerCount = k.timerCount) : Steady k k' :=
  ⟨⟨fun _ => leads_trivial _, fun _ => leads_trivial _, fun _ => leads_trivial _,
    fun _ => leads_trivial _, hb⟩, h2, hc⟩

theorem Steady.refl (k : Kernel) : Steady k k :=
  Steady.of_follows (fun _ => ⟨rfl, id⟩) rfl rfl

theorem Steady.trans (h : Steady k₀ k) (h' : Steady k k') : Steady k₀ k' :=
  Steady.of_follows (fun t => ⟨(h'.body t).trans (h.body t), fun hs => h'.alive t (h.alive t hs)⟩)
    (h'.ram2.trans h.ram2) (h'.timerCount.trans h.timerCount)

/-! ## 2. The operations -/

section Operations

variable (h : Steady k₀ k)
include h

theorem Steady.frame (ht : k'.toTasks.tcb = k.toTasks.tcb) (h2 : k'.ram2 = k.ram2)
    (hc : k'.timerCount = k.timerCount) : Steady k₀ k' :=
  h.trans (Steady.of_follows (fun t => by unfold Tasks.data; rw [ht]; exact ⟨rfl, id⟩) h2 hc)

theorem Steady.setErrno (e : Errno) : Steady k₀ (k.setErrno e) := h.frame rfl rfl rfl

theorem Steady.setCurrent (t : Tid) : Steady k₀ (k.setCurrent t) := h.frame rfl rfl rfl

/-- Writing fields outside the body. -/
theorem Steady.modifyTcb {f : TcbData → TcbData} (hf : ∀ d : TcbData, d.Follows (f d)) :
    Steady k₀ (k.modifyTcb t f) := by
  refine ⟨h.links.modify ⟨(hf _).1.trans (h.body t), fun hs => ?_⟩, h.ram2, h.timerCount⟩
  exact (hf _).2 (h.alive t hs)

theorem Steady.setTaskState (t : Tid) {v : TaskState} (hv : v ≠ .dormant) :
    Steady k₀ (k.setTaskState t v) := h.modifyTcb fun _ => ⟨rfl, fun _ => hv⟩

theorem Steady.setReady (t : Tid) : Steady k₀ (k.setTaskState t .ready) :=
  h.setTaskState t (by simp)

theorem Steady.setRunning (t : Tid) : Steady k₀ (k.setTaskState t .running) :=
  h.setTaskState t (by simp)

theorem Steady.setPrio (t : Tid) (prio : Nat) : Steady k₀ (k.setPrio t prio) :=
  h.modifyTcb fun _ => ⟨rfl, id⟩

theorem Steady.pushHead (t : Tid) (q : QId) : Steady k₀ (k.pushHead t q) :=
  ⟨h.links.pushHead (follows_closed _) True.intro, h.ram2, h.timerCount⟩

theorem Steady.pushTail (t : Tid) (q : QId) : Post (k.pushTail t q) (Steady k₀) :=
  Ends.bind (h.links.pushTail (follows_closed _) True.intro).post
    fun _ hs => ⟨hs, h.ram2, h.timerCount⟩

theorem Steady.popHead (q : QId) : Steady k₀ (k.popHead q) :=
  ⟨(h.links.popHead (follows_closed _)).1, h.ram2, h.timerCount⟩

theorem Steady.popTask (t : Tid) (q : QId) : Post (k.popTask t q) (Steady k₀) :=
  Ends.bind (h.links.popTask (follows_closed _)).post fun _ hs => ⟨hs, h.ram2, h.timerCount⟩

theorem Steady.pushBuffer (m : MbxId) (buf : Buf) : Post (k.pushBuffer m buf) (Steady k₀) :=
  (k.pushBuffer_ends m buf).post.imp fun _ ⟨_, _, e⟩ => e ▸ h.frame rfl rfl rfl

theorem Steady.popBuffer (m : MbxId) (buf : Buf) (len : Nat) :
    Post (k.popBuffer m buf len) fun r => Steady k₀ r.1 :=
  (k.popBuffer_ends m buf len).post.imp fun _ ⟨_, e⟩ => e ▸ h.frame rfl rfl rfl

theorem Steady.scheduler : Steady k₀ k.scheduler.1 := by
  unfold Kernel.scheduler
  split
  · exact h
  · exact h.popHead _

theorem Steady.switchTo (t : Tid) : Steady k₀ (k.switchTo t) := (h.setCurrent t).setRunning t

theorem Steady.runScheduled : Steady k₀ k.runScheduled := h.scheduler.switchTo _

theorem Steady.kTskRunNew : Steady k₀ k.kTskRunNew.1 := by
  unfold Kernel.kTskRunNew
  split
  · exact h
  have h1 := h.scheduler.setCurrent k.scheduler.2
  have h2 := h1.setRunning k.scheduler.2
  dsimp only
  split
  · split
    · exact h2.setReady _
    · exact h2
  · exact h1

theorem Steady.giveWay : Post k.giveWay (Steady k₀) :=
  Ends.bind Ends.trivial fun q _ => (h.pushHead _ q).kTskRunNew

theorem Steady.unchanged (hk : Unchanged k k') : Steady k₀ k' := by
  rcases hk with rfl | ⟨e, rfl⟩
  · exact h
  · exact h.setErrno e

/-! ## 3. The calls on tasks -/

theorem Steady.kTskYield : Post k.kTskYield fun r => Steady k₀ r.1 := by
  unfold Kernel.kTskYield
  refine Ends.ite (fun _ => h) fun _ => Ends.ite (fun _ => h) fun _ => ?_
  refine Ends.ite (fun _ => h) fun _ => Ends.ite (fun _ => ?_) fun _ => h.kTskRunNew
  refine Ends.bind Ends.trivial fun q _ => Ends.bind (h.pushTail _ q) fun k₁ h1 => ?_
  exact h1.kTskRunNew

theorem Steady.startNew (t : Tid) (order : Int) : Post (k.startNew t order) (Steady k₀) := by
  unfold Kernel.startNew
  refine Ends.ite (fun _ => ?_) fun _ => Ends.bind Ends.trivial fun q _ => h.pushTail t q
  exact Ends.bind Ends.trivial fun q _ => (h.switchTo t).pushHead _ q

theorem Steady.promote (t : Tid) (prio : Nat) : Post (k.promote t prio) (Steady k₀) := by
  unfold Kernel.promote
  have h1 := (h.setPrio t prio).setCurrent t
  refine Ends.bind Ends.trivial fun q _ => Ends.bind (h1.popTask t q) fun k₁ h2 => ?_
  exact Ends.bind Ends.trivial fun q' _ => (h2.pushHead _ q').setRunning t

theorem Steady.demoteSelf (prio : Nat) : Post (k.demoteSelf prio) (Steady k₀) := by
  unfold Kernel.demoteSelf
  have h1 := h.setPrio k.current prio
  refine Ends.ite (fun _ => ?_) fun _ => h1
  refine Ends.bind Ends.trivial fun q _ => Ends.bind Ends.trivial fun q' _ => ?_
  exact Ends.bind (((h1.setCurrent _).popHead q).pushTail _ q') fun k₁ h2 => h2.setRunning _

theorem Steady.requeue (t : Tid) (prio : Nat) : Post (k.requeue t prio) (Steady k₀) := by
  unfold Kernel.requeue
  refine Ends.bind Ends.trivial fun q _ => Ends.bind ((h.setPrio t prio).popTask t q) fun k₁ h1 => ?_
  exact Ends.bind Ends.trivial fun q' _ => h1.pushTail t q'

theorem Steady.changePrio (t : Tid) (taskId prio : Nat) :
    Post (k.changePrio t taskId prio) (Steady k₀) := by
  unfold Kernel.changePrio
  have h1 : Steady k₀ (if (k.tcb t).state = .blkRecv ∨ (k.tcb t).state = .blkSend then
      k.setPrio t prio else k) := by
    split
    · exact h.setPrio t prio
    · exact h
  refine Ends.ite (fun _ => h1.setPrio t prio) fun _ => Ends.ite (fun _ => h1) fun _ => ?_
  refine Ends.ite (fun _ => h1.promote t prio) fun _ => ?_
  refine Ends.ite (fun _ => ?_) fun _ => h1.requeue t prio
  exact Ends.ite (fun _ => h1.demoteSelf prio) fun _ => h1

theorem Steady.kTskSetPrio (taskId prio : Nat) :
    Post (k.kTskSetPrio taskId prio) fun r => Steady k₀ r.1 := by
  refine (k.kTskSetPrio_spec taskId prio).imp fun r hr => ?_
  obtain ⟨-, e, he⟩ | ⟨t, rfl, -, hk⟩ := hr
  · exact he ▸ h.setErrno e
  · exact (h.changePrio t t.val prio).of_ok hk

/-! ## 4. The calls on mailboxes -/

theorem Steady.wake (t : Tid) (preempt : Bool) : Post (k.wake t preempt) (Steady k₀) := by
  unfold Kernel.wake
  refine Ends.ite (fun _ => ?_) fun _ => h
  refine Ends.bind Ends.trivial fun q _ => Ends.bind (h.pushTail t q) fun k₁ h1 => ?_
  have h2 := h1.setReady t
  refine Ends.ite (fun _ => ?_) fun _ => h2
  exact Ends.bind Ends.trivial fun q' _ => (h2.pushHead _ q').kTskRunNew

theorem Steady.deliver (m : MbxId) (buf : Buf) (preempt : Bool) :
    Post (k.deliver m buf preempt) (Steady k₀) := by
  refine Ends.bind (h.pushBuffer m buf) fun k₁ h1 => ?_
  cases m with
  | uart => exact h1
  | task t => exact h1.wake t preempt

theorem Steady.blockSend (m : MbxId) (buf : Buf) : Post (k.blockSend m buf) (Steady k₀) := by
  have h1 : Steady k₀ (k.modifyTcb k.current fun d => { d with
      state := .blkSend
      messageHeader := some buf }) := h.modifyTcb fun _ => ⟨rfl, fun _ => by simp⟩
  exact Ends.bind (h1.pushTail _ _) fun k₁ h2 => h2.kTskRunNew

theorem Steady.kSendMsg (receiverTid : Nat) (buf : Buf) :
    Post (k.kSendMsg receiverTid buf) fun r => Steady k₀ r.1 := by
  refine Ends.bind Ends.trivial fun r _ => ?_
  cases r with
  | error e => exact h.setErrno e
  | ok m =>
      refine Ends.ite (fun _ => ?_) fun _ => ?_
      · exact Ends.bind (h.deliver m buf true) fun _ h1 => h1
      · exact Ends.bind (h.blockSend m buf) fun _ h1 => h1

theorem Steady.kSendMsgNb (receiverTid : Nat) (buf : Buf) :
    Post (k.kSendMsgNb receiverTid buf) fun r => Steady k₀ r.1 := by
  refine Ends.bind Ends.trivial fun r _ => ?_
  cases r with
  | error e => exact h.setErrno e
  | ok m =>
      refine Ends.ite (fun _ => ?_) fun _ => h.setErrno _
      exact Ends.bind (h.deliver m buf _) fun _ h1 => h1

omit h in
/-- The loop of the receives, by induction on the rounds. -/
theorem Steady.releaseLoop (m : MbxId) (n : Nat) (h : Steady k₀ k) :
    Post (Kernel.releaseLoop m n k) (Steady k₀) := by
  induction n generalizing k with
  | zero => exact h
  | succ n ih =>
      unfold Kernel.releaseLoop
      cases (k.queue (.waiting m)).head with
      | none => exact h
      | some t =>
          dsimp only
          cases (k.tcb t).messageHeader with
          | none => exact True.intro
          | some buf =>
              refine Ends.ite (fun _ => h) fun _ => ?_
              refine Ends.bind ((h.popHead _).pushBuffer m buf) fun k₁ h1 => ?_
              refine Ends.bind Ends.trivial fun q _ => ?_
              exact Ends.bind (h1.pushTail t q) fun k₂ h2 => ih h2

theorem Steady.recvRest (m : MbxId) (buf : Buf) (len : Nat) :
    Post (k.recvRest m buf len) fun r => Steady k₀ r.1 := by
  refine Ends.bind (h.popBuffer m buf len) fun r h1 => ?_
  refine Ends.bind (Steady.releaseLoop m _ h1) fun k₁ h2 => ?_
  exact Ends.bind h2.giveWay fun _ h3 => h3

theorem Steady.resumeRecv (p : Pending) : Post (k.resumeRecv p) fun r => Steady k₀ r.1 := by
  have h1 : Steady k₀ { k with pend := Function.update k.pend k.current none } :=
    h.frame rfl rfl rfl
  exact Ends.bind (h1.recvRest p.mbx p.buf p.len) fun _ h2 => h2

theorem Steady.kRecvMsg (buf : Option Buf) (len : Nat) :
    Post (k.kRecvMsg buf len) fun r => Steady k₀ r.1 := by
  unfold Kernel.kRecvMsg
  cases buf with
  | none => exact h.setErrno _
  | some buf =>
      refine Ends.bind Ends.trivial fun m _ => Ends.ite (fun _ => h.setErrno _) fun _ => ?_
      refine Ends.bind (h.popBuffer m buf len) fun r h1 => ?_
      refine Ends.ite (fun _ => h1.setErrno _) fun _ => Ends.ite (fun _ => ?_) fun _ => ?_
      · -- the mailbox is empty
        have h2 := (h1.setTaskState r.1.current (v := .blkRecv) (by simp)).kTskRunNew
        refine Ends.ite (fun _ => h2.frame rfl rfl rfl) fun _ => ?_
        exact Ends.bind (h2.recvRest m r.2.1 len) fun _ h3 => h3
      · refine Ends.bind (Steady.releaseLoop m _ h1) fun k₁ h2 => ?_
        exact Ends.bind h2.giveWay fun _ h3 => h3

theorem Steady.kRecvMsgNb (buf : Option Buf) (len : Nat) :
    Post (k.kRecvMsgNb buf len) fun r => Steady k₀ r.1 := by
  unfold Kernel.kRecvMsgNb
  cases buf with
  | none => exact h.setErrno _
  | some buf =>
      refine Ends.bind Ends.trivial fun m _ => Ends.ite (fun _ => h.setErrno _) fun _ => ?_
      refine Ends.ite (fun _ => h.setErrno _) fun _ => ?_
      refine Ends.bind (h.popBuffer m buf len) fun r h1 => ?_
      refine Ends.ite (fun _ => h1.setErrno _) fun _ => ?_
      refine Ends.bind (Steady.releaseLoop m _ h1) fun k₁ h2 => Ends.ite (fun _ => h2) fun _ => ?_
      exact Ends.bind h2.giveWay fun _ h3 => h3

/-- The allocator of IRAM1 leaves IRAM2 alone. -/
theorem Steady.memAlloc (size : Nat) :
    Post (k.mpoolAlloc mpidIram1 size) fun r => Steady k₀ r.1 := by
  unfold Kernel.mpoolAlloc
  rw [show kMpoolAlloc k.mem mpidIram1 size = _ from Pools.kMpoolAlloc_eq k.mem .iram1 size]
  cases (k.mem.pool .iram1).alloc PoolId.iram1.cfg size with
  | none => exact trivial
  | some x =>
      cases x with
      | error e => exact h.frame rfl rfl rfl
      | ok x => exact h.frame rfl rfl rfl

theorem Steady.memDealloc (ptr : Option Nat) :
    Post (k.mpoolDealloc mpidIram1 ptr) fun r => Steady k₀ r.1 := by
  unfold Kernel.mpoolDealloc
  cases ptr with
  | none => exact h.frame rfl rfl rfl
  | some a =>
      rw [show kMpoolDealloc k.mem mpidIram1 (some a) = _ from
        Pools.kMpoolDealloc_eq k.mem .iram1 a]
      cases (k.mem.pool .iram1).dealloc PoolId.iram1.cfg (some a) with
      | none => exact trivial
      | some x =>
          cases x with
          | error e => exact h.frame rfl rfl rfl
          | ok p => exact h.frame rfl rfl rfl

end Operations

/-! ## 5. The events that write bodies -/

/-- The state after an allocation. -/
def Kernel.withMem (k : Kernel) (m : Mem) : Kernel :=
  { k with ram1 := m.ram1, ram2 := m.ram2, errno := m.errno }

/-- `k_tsk_create` refuses, or it goes on behind `k_tsk_create_new`. -/
theorem kTskCreate_steady (k : Kernel) (taskEntry prio stackSize : Nat) :
    Post (k.kTskCreate taskEntry prio stackSize) fun r =>
      (r.2.1 = rtxErr ∧ Unchanged k r.1) ∨ ∃ size x, (k.data k.dormantSlot).state = .dormant ∧
        k.kTskCreateNew ⟨taskEntry, size, prio, 0⟩ k.dormantSlot = .ok x ∧ Steady x.1 r.1 := by
  unfold Kernel.kTskCreate
  refine Ends.ite (fun _ => Or.inl ⟨rfl, Or.inr ⟨_, rfl⟩⟩) fun hslot => ?_
  refine Ends.ite (fun _ => Or.inl ⟨rfl, Or.inr ⟨_, rfl⟩⟩) fun _ => ?_
  have hs : (k.data k.dormantSlot).state = .dormant := dormantSlot_dormant k hslot
  refine Ends.bind Ends.returned fun x hx => ?_
  refine Ends.ite (fun _ => Or.inr ⟨_, x, hs, hx, Steady.refl _⟩) fun _ => ?_
  exact Ends.bind ((Steady.refl x.1).startNew _ _) fun k₁ h1 => Or.inr ⟨_, x, hs, hx, h1⟩

/-- `k_mbx_create` refuses, or it takes a block of IRAM2. -/
theorem kMbxCreate_steady (k : Kernel) (size : Nat) :
    Post (k.kMbxCreate size) fun r => Unchanged k r.1 ∨ ∃ m ptr,
      kMpoolAlloc k.mem mpidIram2 size = some (m, ptr) ∧ Steady (k.withMem m) r.1 := by
  unfold Kernel.kMbxCreate
  refine Ends.bind Ends.trivial fun m _ => Ends.ite (fun _ => Or.inl (Or.inr ⟨_, rfl⟩)) fun _ => ?_
  refine Ends.ite (fun _ => Or.inl (Or.inr ⟨_, rfl⟩)) fun _ => ?_
  refine Ends.bind Ends.returned fun x hx => ?_
  obtain ⟨k₁, ptr⟩ := x
  obtain ⟨mem, hal, rfl⟩ := mpoolAlloc_eq_ok hx
  cases ptr with
  | none => exact Or.inr ⟨mem, none, hal, (Steady.refl _).setErrno _⟩
  | some a => exact Or.inr ⟨mem, some a, hal, (Steady.refl _).frame rfl rfl rfl⟩

/-- The period, in ticks, that `k_rt_tsk_set` takes from a `TIMEVAL`. -/
def Timeval.period (tv : Timeval) : Nat := (tv.sec * 1000000 + tv.usec) % 2 ^ 32 / 500

/-- A TCB as `k_rt_tsk_set` makes it, at a tick count. -/
def TcbData.makeRealTime (now period : Nat) (d : TcbData) : TcbData :=
  { d with
    realTime := true
    tskPeriod := period
    tskDeadline := add32 (add32 now 1) period
    prio := prioRt
    state := .ready }

theorem kRtTskSet_steady (k : Kernel) (tv : Timeval) :
    Post (k.kRtTskSet tv) fun r =>
      (k.cur.realTime = true ∧ r = (k.setErrno .EPERM, rtxErr)) ∨
        (k.cur.realTime = false ∧ r.2 = rtxOk ∧
          Steady (k.modifyTcb k.current (TcbData.makeRealTime k.timerCount tv.period)) r.1) := by
  unfold Kernel.kRtTskSet
  refine Ends.ite (fun hrt => Or.inl ⟨hrt, rfl⟩) fun hrt => Ends.ite (fun h => ?_) fun _ => ?_
  · -- zero is a multiple of everything
    exact absurd (h.1 ▸ Nat.zero_mod 2500) h.2
  refine Ends.bind Ends.trivial fun q _ => ?_
  refine Ends.bind ((Steady.refl _).pushTail k.current q) fun k₁ h1 => ?_
  exact Or.inr ⟨Bool.eq_false_iff.mpr hrt, rfl, h1.runScheduled⟩

/-- The deadline that `k_rt_tsk_susp` gives a task. -/
def TcbData.postpone (k : Kernel) (d : TcbData) : TcbData :=
  { d with tskDeadline := k.nextDeadline d.tskDeadline d.tskPeriod }

theorem kRtTskSusp_steady (k : Kernel) :
    Post k.kRtTskSusp fun r =>
      (k.cur.realTime = false ∧ r = (k.setErrno .EPERM, rtxErr)) ∨
        (k.cur.realTime = true ∧ r.2 = rtxOk ∧
          Steady (k.modifyTcb k.current (TcbData.postpone k)) r.1) := by
  unfold Kernel.kRtTskSusp
  refine Ends.ite (fun hrt => Or.inl ⟨hrt, rfl⟩) fun hrt => ?_
  have h1 : Steady (k.modifyTcb k.current (TcbData.postpone k))
      ((k.setTaskState k.current .suspended).modifyTcb k.current (TcbData.postpone k)) := by
    refine Steady.of_follows (fun t => ?_) rfl rfl
    rw [Kernel.data_modifyTcb, Kernel.data_modifyTcb, Kernel.data_setTaskState]
    by_cases e : t = k.current
    · subst e
      simp only [Function.update_self]
      exact ⟨rfl, fun _ => by simp [TcbData.postpone]⟩
    · simp only [Function.update_of_ne e]
      exact ⟨rfl, id⟩
  refine Ends.bind (h1.pushTail k.current .suspend) fun k₁ h2 => ?_
  exact Or.inr ⟨(Bool.not_eq_false _).mp hrt, rfl, h2.runScheduled⟩

/-! ### The timer interrupt -/

/-- Nothing is counted, or the running task is. -/
def Counts (k k' : Kernel) : Prop :=
  Steady k k' ∨ ∃ k₁, Steady k k₁ ∧ k' = k₁.countExecution k₁.current

section Timer

variable (h : Steady k₀ k)
include h

omit h in
/-- The loop over `suspend_tsk`, by induction on the rounds. -/
theorem Steady.releaseDue (fuel : Nat) (v : Option Tid) (h : Steady k₀ k) :
    Post (Kernel.releaseDue fuel k v) (Steady k₀) := by
  induction fuel generalizing k v with
  | zero =>
      cases v with
      | none => exact h
      | some t => exact True.intro
  | succ fuel ih =>
      cases v with
      | none => exact h
      | some t =>
          unfold Kernel.releaseDue
          refine Ends.ite (fun _ => ?_) fun _ => ih _ h
          refine Ends.bind (h.popTask t .suspend) fun k₁ h1 => Ends.bind Ends.trivial fun q _ => ?_
          exact Ends.bind ((h1.setReady t).pushTail t q) fun k₂ h2 => ih _ h2

theorem Steady.putBack (t : Tid) : Post (k.putBack t) (Counts k₀) :=
  Ends.bind Ends.trivial fun q _ => Or.inl (h.pushHead t q)

theorem Steady.start (t : Tid) : Counts k₀ ((k.switchTo t).countExecution t) :=
  Or.inr ⟨_, h.switchTo t, rfl⟩

theorem Steady.startIf (t : Tid) (c : Prop) [Decidable c] :
    Counts k₀ (if c then (k.switchTo t).countExecution t else k.switchTo t) := by
  split
  · exact h.start t
  · exact Or.inl (h.switchTo t)

theorem Steady.preempt : Post k.preempt (Counts k₀) := by
  have h1 := h.scheduler
  unfold Kernel.preempt
  refine Ends.ite (fun _ => ?_) fun _ => Ends.ite (fun _ => ?_) fun _ => ?_
  · change Counts k₀ k.preemptNull
    unfold Kernel.preemptNull
    dsimp only
    split
    · exact h1.startIf _ _
    · exact Or.inl h1
  · refine Ends.ite (fun _ => h1.startIf _ _) fun _ => Ends.ite (fun _ => ?_) fun _ => Or.inl h
    refine Ends.ite (fun _ => Ends.ite (fun _ => ?_) fun _ => h1.putBack _) fun _ => h1.putBack _
    refine Ends.bind Ends.trivial fun q _ => Ends.bind (h1.pushTail _ q) fun k₁ h2 => ?_
    exact (h2.setReady _).start _
  · refine Ends.ite (fun _ => ?_) fun _ => Or.inl h1
    refine Ends.ite (fun _ => ?_) fun _ => h1.putBack _
    exact Ends.bind Ends.trivial fun q _ => ((h1.setReady _).pushHead _ q).start _

end Timer

/-- The interrupt sets the tick count and counts at most one task, the one that runs behind it. -/
theorem timer0IrqHandler_counts (k : Kernel) (tc pc : Nat) :
    Post (k.timer0IrqHandler tc pc)
      (Counts { k with timerCount := Kernel.correctRound tc pc }) := by
  unfold Kernel.timer0IrqHandler
  dsimp only
  cases (k.queue .suspend).head with
  | none => exact True.intro
  | some t =>
      have h1 := (Steady.refl { k with timerCount := Kernel.correctRound tc pc }).setTaskState
        (v := .suspended) t (by simp)
      exact Ends.bind (Steady.releaseDue _ _ h1) fun k₁ h2 => h2.preempt

/-! ## 6. The other events -/

/-- The events that write no body. -/
def Event.steady : Event → Bool
  | .call (.tskCreate ..) | .call (.mbxCreate _) | .call (.rtTskSet _) | .call .rtTskSusp
  | .timer .. => false
  | _ => true

/-- **All other events are steady.** -/
theorem exec_steady (k : Kernel) {e : Event} (he : e.steady = true) :
    Post (k.exec e) fun r => Steady k r.1 := by
  have h := Steady.refl k
  cases e with
  | call c =>
      cases c with
      | memAlloc size => exact Ends.bind (h.memAlloc size) fun _ hr => hr
      | memDealloc ptr => exact Ends.bind (h.memDealloc ptr) fun _ hr => hr
      | tskExit => exact h.runScheduled
      | tskYield => exact Ends.bind h.kTskYield fun _ hr => hr
      | tskSetPrio taskId prio => exact Ends.bind (h.kTskSetPrio taskId prio) fun _ hr => hr
      | tskGet tid buffer msp psp =>
          exact Ends.bind (k.kTskGet_unchanged tid buffer msp psp) fun _ hr => h.unchanged hr
      | tskGettid => exact h
      | tskLs buf count => exact h.unchanged (k.kTskLs_unchanged buf count)
      | mbxSend receiverTid buf => exact Ends.bind (h.kSendMsg receiverTid buf) fun _ hr => hr
      | mbxSendNb receiverTid buf => exact Ends.bind (h.kSendMsgNb receiverTid buf) fun _ hr => hr
      | mbxRecv buf len => exact Ends.bind (h.kRecvMsg buf len) fun _ hr => hr
      | mbxRecvNb buf len => exact Ends.bind (h.kRecvMsgNb buf len) fun _ hr => hr
      | mbxLs buf count => exact h.unchanged (k.kMbxLs_unchanged buf count)
      | mbxGet tid => exact Ends.bind (k.kMbxGet_unchanged tid) fun _ hr => h.unchanged hr
      | rtTskGet tid buffer =>
          exact Ends.bind (k.kRtTskGet_unchanged tid buffer) fun _ hr => h.unchanged hr
      | tskCreate | mbxCreate | rtTskSet | rtTskSusp => cases he
  | resume =>
      unfold Kernel.exec
      cases k.pend k.current with
      | none => exact h
      | some p => exact Ends.bind (h.resumeRecv p) fun _ hr => hr
  | timer tc pc => cases he
  | overwrite t buf =>
      change Steady k (if (k.tcb t).state = .blkSend then k.modifyTcb t _ else k)
      split
      · exact h.modifyTcb fun _ => ⟨rfl, id⟩
      · exact h

/-! ## 7. One event, one task -/

/-- What the event `e` can make of the TCB `d` of the task `t`: it leaves the body as it is, or it
    writes what its name says. -/
inductive Writes (k : Kernel) (t : Tid) (d : TcbData) : Event → TcbData → Prop
  | same {e x} : d.Follows x → Writes k t d e x
  | noMemory {taskEntry prio stackSize x} : d.state = .dormant →
      TcbData.Follows { d with pspBase := none } x →
      Writes k t d (.call (.tskCreate taskEntry prio stackSize)) x
  | create {taskEntry prio stackSize x} (base size : Nat) : d.state = .dormant →
      (TaskInit.tcb ⟨taskEntry, size, prio, 0⟩ t base size).Follows x →
      Writes k t d (.call (.tskCreate taskEntry prio stackSize)) x
  | makeRealTime {tv x} : t = k.current → d.realTime = false →
      (d.makeRealTime k.timerCount tv.period).Follows x → Writes k t d (.call (.rtTskSet tv)) x
  | postpone {x} : t = k.current → d.realTime = true → (d.postpone k).Follows x →
      Writes k t d (.call .rtTskSusp) x
  | count {tc pc x} : TcbData.Follows { d with nthExecution := d.nthExecution + 1 } x →
      Writes k t d (.timer tc pc) x

/-- The tick count after an event. -/
def Kernel.countAfter (k : Kernel) : Event → Nat
  | .timer tc pc => Kernel.correctRound tc pc
  | _ => k.timerCount

theorem Steady.follows (h : Steady k k') (t : Tid) : (k.data t).Follows (k'.data t) :=
  h.links.data t

/-- What one TCB becomes, when an event writes to one TCB and is steady behind that. -/
theorem Steady.follows_update (h : Steady k₁ k') {u : Tid} {x : TcbData}
    (hd : k₁.data = Function.update k.data u x) (t : Tid) :
    (t = u ∧ x.Follows (k'.data t)) ∨ (t ≠ u ∧ (k.data t).Follows (k'.data t)) := by
  have hf := h.follows t
  rw [hd] at hf
  by_cases e : t = u
  · subst e
    rw [Function.update_self] at hf
    exact Or.inl ⟨rfl, hf⟩
  · rw [Function.update_of_ne e] at hf
    exact Or.inr ⟨e, hf⟩

theorem Unchanged.writes {e : Event} (hu : Unchanged k k') (t : Tid) :
    Writes k t (k.data t) e (k'.data t) :=
  .same (((Steady.refl k).unchanged hu).follows t)

/-- The interrupt counts at most one execution. -/
theorem timer0IrqHandler_writes (k : Kernel) (tc pc : Nat) :
    Post (k.timer0IrqHandler tc pc) fun k' =>
      (∀ t, Writes k t (k.data t) (.timer tc pc) (k'.data t)) ∧
        k'.timerCount = k.countAfter (.timer tc pc) := by
  refine (timer0IrqHandler_counts k tc pc).imp fun k' hk' => ?_
  obtain hk' | ⟨k₁, hk₁, rfl⟩ := hk'
  · exact ⟨fun t => .same (hk'.follows t), hk'.timerCount⟩
  · refine ⟨fun t => ?_, hk₁.timerCount⟩
    have hf := hk₁.follows t
    change Writes k t _ _ ((k₁.countExecution k₁.current).data t)
    unfold Kernel.countExecution
    rw [Kernel.data_modifyTcb]
    by_cases e : t = k₁.current
    · subst e
      rw [Function.update_self]
      refine .count ⟨?_, hf.2⟩
      exact congrArg (fun d => { d with nthExecution := d.nthExecution + 1 }) hf.1
    · rw [Function.update_of_ne e]
      exact .same hf

/-- A creation writes the TCB of the dormant slot only. -/
theorem kTskCreate_writes (k : Kernel) (taskEntry prio stackSize : Nat) :
    Post (k.kTskCreate taskEntry prio stackSize) fun r =>
      (∀ t, Writes k t (k.data t) (.call (.tskCreate taskEntry prio stackSize)) (r.1.data t)) ∧
        r.1.timerCount = k.timerCount := by
  refine (kTskCreate_steady k taskEntry prio stackSize).imp fun r hr => ?_
  obtain ⟨-, hu⟩ | ⟨size, x, hs, hx, hr⟩ := hr
  · exact ⟨hu.writes, ((Steady.refl k).unchanged hu).timerCount⟩
  obtain ⟨power, k₁, ptr, -, hal, hx⟩ := (kTskCreateNew_spec k _ _).of_ok hx
  obtain ⟨m, -, rfl⟩ := mpoolAlloc_eq_ok hal
  generalize hslot : k.dormantSlot = u at hs hx
  obtain ⟨-, -, h1⟩ | ⟨a, -, -, h1⟩ := hx
  · rw [h1] at hr
    refine ⟨fun t => ?_, hr.timerCount⟩
    have hd := k.data_modifyTcb u fun d => { d with pspBase := none }
    obtain ⟨rfl, hf⟩ | ⟨-, hf⟩ := hr.follows_update (k := k) hd t
    · exact .noMemory hs hf
    · exact .same hf
  · rw [h1] at hr
    refine ⟨fun t => ?_, hr.timerCount⟩
    have hd := k.data_modifyTcb u fun _ =>
      TaskInit.tcb ⟨taskEntry, power2 power, prio, 0⟩ u a (power2 power)
    obtain ⟨rfl, hf⟩ | ⟨-, hf⟩ := hr.follows_update (k := k) hd t
    · exact .create a (power2 power) hs hf
    · exact .same hf

/-- **What an event does**, in any state. -/
theorem exec_writes (k : Kernel) (e : Event) :
    Post (k.exec e) fun r => (∀ t, Writes k t (k.data t) e (r.1.data t)) ∧
      r.1.timerCount = k.countAfter e := by
  cases he : e.steady with
  | true =>
      refine (exec_steady k he).imp fun r hr => ⟨fun t => .same (hr.follows t), ?_⟩
      cases e with
      | timer => cases he
      | _ => exact hr.timerCount
  | false =>
      cases e with
      | resume | overwrite => cases he
      | timer tc pc => exact Ends.bind (timer0IrqHandler_writes k tc pc) fun _ hk' => hk'
      | call c =>
          cases c with
          | tskCreate taskEntry prio stackSize =>
              exact Ends.bind (kTskCreate_writes k taskEntry prio stackSize) fun _ hr => hr
          | mbxCreate size =>
              refine Ends.bind (kMbxCreate_steady k size) fun r hr => ?_
              obtain hu | ⟨m, ptr, -, hr⟩ := hr
              · exact ⟨hu.writes, ((Steady.refl k).unchanged hu).timerCount⟩
              · exact ⟨fun t => .same (hr.follows t), hr.timerCount⟩
          | rtTskSet tv =>
              refine Ends.bind (kRtTskSet_steady k tv) fun r hr => ?_
              obtain ⟨-, rfl⟩ | ⟨hrt, -, hr⟩ := hr
              · exact ⟨Unchanged.writes (Or.inr ⟨_, rfl⟩), rfl⟩
              refine ⟨fun t => ?_, hr.timerCount⟩
              obtain ⟨rfl, hf⟩ | ⟨-, hf⟩ := hr.follows_update (k.data_modifyTcb _ _) t
              · exact .makeRealTime rfl hrt hf
              · exact .same hf
          | rtTskSusp =>
              refine Ends.bind (kRtTskSusp_steady k) fun r hr => ?_
              obtain ⟨-, rfl⟩ | ⟨hrt, -, hr⟩ := hr
              · exact ⟨Unchanged.writes (Or.inr ⟨_, rfl⟩), rfl⟩
              refine ⟨fun t => ?_, hr.timerCount⟩
              obtain ⟨rfl, hf⟩ | ⟨-, hf⟩ := hr.follows_update (k.data_modifyTcb _ _) t
              · exact .postpone rfl hrt hf
              · exact .same hf
          | _ => cases he

theorem TcbData.Follows.field {d x : TcbData} (h : d.Follows x) {α : Type} (f : TcbData → α)
    (hf : ∀ d, f d.body = f d) : f x = f d := by
  rw [← hf, h.1, hf]

/-- A real-time task keeps its period; its TCB changes only when it suspends itself or is
    counted. -/
theorem Writes.realTime {d x : TcbData} {e : Event} (h : Writes k t d e x)
    (hrt : d.realTime = true) (hs : d.state ≠ .dormant) :
    (x.realTime = true ∧ x.state ≠ .dormant ∧ x.tskPeriod = d.tskPeriod) ∧
      (d.Follows x ∨ (e = .call .rtTskSusp ∧ t = k.current ∧ (d.postpone k).Follows x) ∨
        ∃ tc pc, e = .timer tc pc ∧
          TcbData.Follows { d with nthExecution := d.nthExecution + 1 } x) := by
  have hkeep : ∀ {d' : TcbData}, d'.Follows x → d'.realTime = d.realTime → d'.state = d.state →
      d'.tskPeriod = d.tskPeriod →
      x.realTime = true ∧ x.state ≠ .dormant ∧ x.tskPeriod = d.tskPeriod := by
    intro d' hf h1 h2 h3
    refine ⟨?_, hf.2 (h2 ▸ hs), (hf.field TcbData.tskPeriod fun _ => rfl).trans h3⟩
    exact (hf.field TcbData.realTime fun _ => rfl).trans (h1.trans hrt)
  cases h with
  | same hf => exact ⟨hkeep hf rfl rfl rfl, Or.inl hf⟩
  | noMemory hd _ => exact absurd hd hs
  | create _ _ hd _ => exact absurd hd hs
  | makeRealTime _ hd _ =>
      rw [hrt] at hd
      cases hd
  | postpone ht _ hf => exact ⟨hkeep hf rfl rfl rfl, Or.inr (Or.inl ⟨rfl, ht, hf⟩)⟩
  | count hf => exact ⟨hkeep hf rfl rfl rfl, Or.inr (Or.inr ⟨_, _, rfl, hf⟩)⟩

end Rtx
