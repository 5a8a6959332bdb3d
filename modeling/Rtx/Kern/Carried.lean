/-
  File:      Rtx/Kern/Carried.lean
  Subject:   Every event keeps the books of the mailboxes.

  `Carried R k tr` says that the state `k` agrees with the books `tr`. Every event of a run keeps
  it, with its reply entered in the books (`Channel.exec`), if it is tame, nobody writes to the
  buffer of a blocked sender and a receive that goes on brings a buffer that is long enough.
-/
import Rtx.Kern.Channel
import Rtx.Kern.RestStep

namespace Rtx

open Lib

variable {k k' : Kernel} {L L' : Lists} {q : MbxId → List (List UInt8)} {tr tr' : Traffic}
  {m : MbxId} {t : Tid} {buf : Buf} {R : Nat → Nat → Prop} {e : Event}

/-! ## 1. The calls on mailboxes -/

/-- The state agrees with the books. -/
def Carried (R : Nat → Nat → Prop) (k : Kernel) (tr : Traffic) : Prop := ∃ L q, Channel R k L q tr

/-- A call that was refused, or has not returned, is not in the books. -/
theorem Traffic.record_err {r : Reply} (h : r.ret = some rtxErr ∨ r.ret = none) :
    tr.record k e r = tr := by
  have hne : rtxErr ≠ rtxOk := rtxErr_ne_rtxOk
  unfold Traffic.record
  split <;> simp_all [Reply.ret]

theorem Traffic.record_send (tr : Traffic) (k : Kernel) (buf : Buf) {receiverTid : Nat}
    (h : mailboxOf receiverTid = some m)
    (he : e = .call (.mbxSend receiverTid buf) ∨ e = .call (.mbxSendNb receiverTid buf)) :
    tr.record k e (.result rtxOk) = tr.send m k.current buf.msg := by
  rcases he with rfl | rfl <;> simp [Traffic.record, h, rtxErr_ne_rtxOk.symm]

theorem Traffic.record_recv (he : (∃ b len, e = .call (.mbxRecv b len) ∨
      e = .call (.mbxRecvNb b len)) ∨ e = .resume) :
    tr.record k e (.received rtxOk buf) = tr.receive (.task k.current) buf.msg := by
  obtain ⟨b, len, rfl | rfl⟩ | rfl := he <;> simp [Traffic.record]

section Calls

variable (h : Channel R k L q tr)
include h

theorem Channel.carried : Carried R k tr := ⟨L, q, h⟩

/-- A refused call. -/
theorem Channel.refused (e' : Errno) {r : Reply} (hr : r.ret = some rtxErr ∨ r.ret = none) :
    Carried R (k.setErrno e') (tr.record k e r) := by
  rw [Traffic.record_err hr]
  exact (h.setErrno e').carried

section Send

variable (receiverTid : Nat) (buf : Buf)

/-- **`k_send_msg`**, if a real-time task does not block in it. -/
theorem Channel.kSendMsg (h0 : k.current ≠ tidNull)
    (hrt : (k.data k.current).realTime = true → k.sendBlocks receiverTid buf = false) :
    Post (k.kSendMsg receiverTid buf) fun r =>
      Carried R r.1 (tr.record k (.call (.mbxSend receiverTid buf)) (.result r.2)) := by
  unfold Kernel.kSendMsg
  cases hc : k.checkSend receiverTid buf with
  | error f => exact trivial
  | ok r =>
      cases r with
      | error e => exact h.refused e (Or.inl rfl)
      | ok m =>
          have hacc := (k.checkSend_spec receiverTid buf).of_ok hc m rfl
          have hrec := tr.record_send k buf hacc.mailboxOf (Or.inl rfl)
          refine Ends.ite (fun hadm => ?_) fun hadm => ?_
          · refine Ends.bind (h.deliver hacc (fun _ => h0) hadm) fun k' hk' => ?_
            obtain ⟨L', h1⟩ := hk'
            change Carried R k' (tr.record k _ (.result rtxOk))
            rw [hrec]
            exact h1.carried
          · have hrt' : (k.data k.current).realTime = false := by
              rw [Bool.eq_false_iff]
              intro e
              have := hrt e
              unfold Kernel.sendBlocks at this
              simp [hc, hadm] at this
            refine Ends.bind (h.blockSend hacc h0 hrt' hadm) fun k' hk' => ?_
            obtain ⟨L', h1⟩ := hk'
            change Carried R k' (tr.record k _ (.result rtxOk))
            rw [hrec]
            exact h1.carried

/-- **`k_send_msg_nb`**; the null task runs it in an interrupt of the UART only. -/
theorem Channel.kSendMsgNb (h0 : buf.senderTid ≠ tidUart → k.current ≠ tidNull) :
    Post (k.kSendMsgNb receiverTid buf) fun r =>
    Carried R r.1 (tr.record k (.call (.mbxSendNb receiverTid buf)) (.result r.2)) := by
  unfold Kernel.kSendMsgNb
  cases hc : k.checkSend receiverTid buf with
  | error f => exact trivial
  | ok r =>
      cases r with
      | error e => exact h.refused e (Or.inl rfl)
      | ok m =>
          have hacc := (k.checkSend_spec receiverTid buf).of_ok hc m rfl
          have hrec := tr.record_send k buf hacc.mailboxOf (Or.inr rfl)
          refine Ends.ite (fun hadm => ?_) fun _ => h.refused _ (Or.inl rfl)
          refine Ends.bind (h.deliver hacc (fun e => h0 (of_decide_eq_true e)) hadm) fun k' hk' => ?_
          obtain ⟨L', h1⟩ := hk'
          change Carried R k' (tr.record k _ (.result rtxOk))
          rw [hrec]
          exact h1.carried

end Send

section Recv

variable (h0 : k.current ≠ tidNull) {b : Option Buf} {len : Nat}
include h0

/-- A receive that finds a message its buffer has room for. -/
theorem Channel.receive {x : List UInt8} {l : List (List UInt8)}
    (hrt : (k.data k.current).realTime = false) (hq : q (.task k.current) = x :: l)
    (hp : k.pend k.current = none) (hlen : x.length ≤ len) (buf : Buf) :
    ∃ k₁, k.popBuffer (.task k.current) buf len = .ok (k₁, buf.put x, 1) ∧
      (buf.put x).msg = x ∧ Post (k₁.release (.task k.current)) fun k₂ =>
        k₂.uartMailboxCollect = false ∧
        Post k₂.giveWay fun k' => Carried R k' (tr.receive (.task k.current) x) := by
  obtain ⟨k₁, h1, h2, h3⟩ := h.takeOldest h0 hq hp hlen buf
  refine ⟨k₁, h1, h2, h3.imp fun k₂ hk₂ => ?_⟩
  obtain ⟨L₂, q₂, n, h4, -, h5, h6⟩ := hk₂
  have hrt₂ : (k₂.data k₂.current).realTime = false := by
    rw [h5, h6]
    exact hrt
  refine ⟨h4.rest.uart, (h4.giveWay (h5.trans_ne h0) hrt₂).imp fun k' hk' => ?_⟩
  obtain ⟨L', h7⟩ := hk'
  exact h7.carried

/-- **`k_recv_msg`**, if a real-time task does not get past its checks. -/
theorem Channel.kRecvMsg (hp : k.pend k.current = none)
    (hrt : (k.data k.current).realTime = true → k.receives b len = false)
    (hlen : b.isSome → R (k.ring (.task k.current)).capacity len) :
    Post (k.kRecvMsg b len) fun r =>
      Carried R r.1 (tr.record k (.call (.mbxRecv b len)) (.ofReceived r.2)) := by
  unfold Kernel.kRecvMsg
  cases b with
  | none => exact h.refused _ (Or.inl rfl)
  | some buf =>
      refine Ends.bind_ok (h.rest.recvMbx h0) ?_
      refine Ends.ite (fun _ => h.refused _ (Or.inl rfl)) fun hact => ?_
      have hact' : (k.mailbox (.task k.current)).active = true := by simpa using hact
      obtain ⟨heap, hR⟩ := h.rings
      cases hq : q (.task k.current) with
      | nil =>
          -- the mailbox is empty
          have hpop := hR.pop_empty hact' hq buf len
          have hrt' : (k.data k.current).realTime = false := by
            rw [Bool.eq_false_iff]
            intro e
            have := hrt e
            unfold Kernel.receives at this
            simp [hpop, hact'] at this
          obtain ⟨s, t, h1, L', h2⟩ := h.blockRecv h0 hrt' hact' hq (hlen rfl) buf
          refine Ends.bind_ok hpop (Ends.ite (fun e => absurd e (by decide)) fun _ => ?_)
          refine Ends.ite (fun _ => ?_) fun hne => absurd rfl hne
          simp only [h1]
          change Carried R _ (tr.record k _ .none)
          rw [Traffic.record_err (Or.inr rfl)]
          exact h2.carried
      | cons x l =>
          by_cases hx : len < x.length
          · obtain ⟨buf', hpop⟩ := hR.pop_short hact' hq hx buf
            refine Ends.bind_ok hpop ?_
            exact Ends.ite (fun _ => h.refused _ (Or.inl rfl)) fun hne => absurd rfl hne
          · have hpop := hR.pop hact' hq (not_lt.mp hx) buf
            have hrt' : (k.data k.current).realTime = false := by
              obtain ⟨k₁, hpop, -⟩ := hpop
              rw [Bool.eq_false_iff]
              intro e
              have := hrt e
              unfold Kernel.receives at this
              simp [hpop, hact'] at this
            obtain ⟨k₁, h1, h2, h3⟩ := h.receive h0 hrt' hq hp (not_lt.mp hx) buf
            refine Ends.bind_ok h1 (Ends.ite (fun e => absurd e (by decide)) fun _ => ?_)
            refine Ends.ite (fun e => absurd e (by decide)) fun _ => ?_
            refine Ends.bind h3 fun k₂ hk₂ => Ends.bind hk₂.2 fun k₃ hk₃ => ?_
            change Carried R k₃ (tr.record k _ (.received rtxOk (buf.put x)))
            rw [Traffic.record_recv (Or.inl ⟨_, _, Or.inl rfl⟩), h2]
            exact hk₃

/-- **`k_recv_msg_nb`**, likewise. -/
theorem Channel.kRecvMsgNb (hp : k.pend k.current = none)
    (hrt : (k.data k.current).realTime = true → k.receivesNb b len = false) :
    Post (k.kRecvMsgNb b len) fun r =>
      Carried R r.1 (tr.record k (.call (.mbxRecvNb b len)) (.ofReceived r.2)) := by
  unfold Kernel.kRecvMsgNb
  cases b with
  | none => exact h.refused _ (Or.inl rfl)
  | some buf =>
      refine Ends.bind_ok (h.rest.recvMbx h0) ?_
      refine Ends.ite (fun _ => h.refused _ (Or.inl rfl)) fun hact => ?_
      refine Ends.ite (fun _ => h.refused _ (Or.inl rfl)) fun hsize => ?_
      have hact' : (k.mailbox (.task k.current)).active = true := by simpa using hact
      obtain ⟨heap, hR⟩ := h.rings
      cases hq : q (.task k.current) with
      | nil => exact absurd ((hR.rep _ hact').size_eq_zero.mpr hq) hsize
      | cons x l =>
          by_cases hx : len < x.length
          · obtain ⟨buf', hpop⟩ := hR.pop_short hact' hq hx buf
            refine Ends.bind_ok hpop ?_
            exact Ends.ite (fun _ => h.refused _ (Or.inl rfl)) fun hne => absurd rfl hne
          · have hpop := hR.pop hact' hq (not_lt.mp hx) buf
            have hrt' : (k.data k.current).realTime = false := by
              obtain ⟨k₁, hpop, -⟩ := hpop
              rw [Bool.eq_false_iff]
              intro e
              have := hrt e
              unfold Kernel.receivesNb Kernel.receives at this
              simp [hpop, hact', hsize] at this
            obtain ⟨k₁, h1, h2, h3⟩ := h.receive h0 hrt' hq hp (not_lt.mp hx) buf
            refine Ends.bind_ok h1 (Ends.ite (fun e => absurd e (by decide)) fun _ => ?_)
            refine Ends.bind h3 fun k₂ hk₂ => ?_
            refine Ends.ite (fun e => absurd e (by rw [hk₂.1]; simp)) fun _ => ?_
            refine Ends.bind hk₂.2 fun k₃ hk₃ => ?_
            change Carried R k₃ (tr.record k _ (.received rtxOk (buf.put x)))
            rw [Traffic.record_recv (Or.inl ⟨_, _, Or.inr rfl⟩), h2]
            exact hk₃

end Recv

/-- The second half of a receive begins. -/
theorem Channel.resumed : Channel R { k with pend := Function.update k.pend t none } L q tr := by
  obtain ⟨heap, hR⟩ := h.rings
  refine ⟨⟨⟨h.rest.toSound.setPend fun e => absurd rfl e, h.rest.current⟩,
    ⟨heap, hR.pool, hR.inv, hR.rep, hR.empty, hR.block, hR.own, hR.uart⟩, h.copied, h.waiting,
    h.idle, fun u p hu => h.pend u p ?_, h.unused⟩, h.full⟩
  change Function.update k.pend t none u = some p at hu
  rw [Function.update_apply] at hu
  split at hu
  · cases hu
  · exact hu

/-- A task that runs again in the middle of a receive has a message. -/
theorem Channel.resumes {p : Pending} (hp : k.pend k.current = some p) :
    p.mbx = .task k.current ∧ k.current ≠ tidNull ∧ (k.data k.current).realTime = false ∧
      R (k.ring (.task k.current)).capacity p.len ∧ ∃ x l, q (.task k.current) = x :: l := by
  obtain ⟨h0, hrt⟩ := h.rest.pend k.current (by rw [hp]; simp)
  obtain ⟨h1, -, h2, h3⟩ := h.pend _ _ hp
  refine ⟨h1, h0, hrt, h2, List.exists_cons_of_ne_nil (h3.resolve_left fun hs => ?_)⟩
  rw [h.rest.current h0] at hs
  cases hs

/-- **The second half of a `k_recv_msg`**, if the buffer has room for the message. -/
theorem Channel.resumeRecv {p : Pending} (hp : k.pend k.current = some p)
    (hlen : ∀ x ∈ (q (.task k.current)).head?, x.length ≤ p.len) :
    Post (k.resumeRecv p) fun r => Carried R r.1 (tr.record k .resume (.ofReceived r.2)) := by
  obtain ⟨hm, h0, hrt, -, x, l, hq⟩ := h.resumes hp
  obtain ⟨k₁, h1, h2, h3⟩ := (h.resumed (t := k.current)).receive h0 hrt hq
    (Function.update_self _ _ _) (hlen x (by rw [hq]; rfl)) p.buf
  have hrest : Post (Kernel.recvRest { k with pend := Function.update k.pend k.current none }
      (.task k.current) p.buf p.len) fun r =>
        Carried R r.1 (tr.receive (.task k.current) x) ∧ r.2 = p.buf.put x :=
    Ends.bind_ok h1 (Ends.bind h3 fun k₂ hk₂ => Ends.bind hk₂.2 fun k₃ hk₃ => ⟨hk₃, rfl⟩)
  unfold Kernel.resumeRecv
  rw [hm]
  refine Ends.bind hrest fun r hr => ?_
  obtain ⟨k₃, buf'⟩ := r
  obtain ⟨h4, rfl⟩ := hr
  change Carried R k₃ (tr.record k _ (.received rtxOk (p.buf.put x)))
  rw [Traffic.record_recv (Or.inr rfl), h2]
  exact h4

/-- A receive that goes on with a buffer that is too short for the message leaves it in the ring. -/
theorem Channel.resumeRecv_short {p : Pending} {x : List UInt8} {l : List (List UInt8)}
    (hp : k.pend k.current = some p) (hq : q (.task k.current) = x :: l) (hlen : p.len < x.length) :
    Post (k.resumeRecv p) fun r => Carried R r.1 tr := by
  obtain ⟨hm, h0, hrt, -, -⟩ := h.resumes hp
  have h' := h.resumed (t := k.current)
  obtain ⟨heap, hR⟩ := h'.rings
  have hact := h.active_of_mem (hq ▸ List.mem_cons_self : x ∈ q (.task k.current))
  obtain ⟨buf', hpop⟩ := hR.pop_short hact hq hlen p.buf
  have hrecv : ∀ u, MbxId.task k.current = .task u → (k.data u).state ≠ .blkRecv := fun u e hb => by
    rw [← MbxId.task.inj e, h.rest.current h0] at hb
    cases hb
  have hrest : Post (Kernel.recvRest { k with pend := Function.update k.pend k.current none }
      (.task k.current) p.buf p.len) fun r => Carried R r.1 tr := by
    refine Ends.bind_ok hpop (Ends.bind (h'.toFlow.release (fun m' _ => h'.full m') hrecv) ?_)
    intro k₂ hp
    obtain ⟨L₂, q₂, n, h1, -, h2, h3⟩ := hp
    have hrt₂ : (k₂.data k₂.current).realTime = false := by
      rw [h2, h3]
      exact hrt
    exact Ends.bind (h1.giveWay (h2.trans_ne h0) hrt₂) fun k₃ ⟨L₃, h4⟩ => h4.carried
  unfold Kernel.resumeRecv
  rw [hm]
  exact Ends.bind hrest fun r hr => hr

/-! ### The calls that create something, and `k_tsk_yield` -/

/-- A call that moves no message keeps the books. -/
theorem Channel.rescheduled (hk : Rescheduled k k' L) (hg : ∃ h, Rings k' h q) :
    Carried R k' tr := by
  obtain ⟨L', h1, h2, h3, h4, -⟩ := hk
  exact (h.calm (h2.still.calm h3 h4) h1 hg).carried

theorem Channel.kTskYield : Post k.kTskYield fun r => Carried R r.1 tr := by
  obtain ⟨heap, hR⟩ := h.rings
  refine h.rest.kTskYield.imp fun r hr => h.rescheduled hr.1 ?_
  obtain ⟨⟨L', -, -, h3, h4, -⟩, hmem⟩ := hr
  exact ⟨heap, hR.tasksOnly ⟨hmem, h3, h4⟩⟩

/-- The pool of the tasks is IRAM1; the rings they create are in IRAM2. -/
theorem Channel.mem (m : Mem) (hm : m.ram2 = k.ram2) :
    Carried R { k with ram1 := m.ram1, ram2 := m.ram2, errno := m.errno } tr :=
  have hc : Calm k { k with ram1 := m.ram1, ram2 := m.ram2, errno := m.errno } L L :=
    Calm.same rfl rfl rfl
  (h.calm hc (h.rest.frame rfl rfl rfl rfl (fun _ => rfl) rfl)
    (h.rings.imp fun _ hg => hg.frame rfl hm rfl)).carried

variable (h0 : k.current ≠ tidNull)
include h0

theorem Channel.kTskCreate (taskEntry prio stackSize : Nat) :
    Post (k.kTskCreate taskEntry prio stackSize) fun r => Carried R r.1 tr := by
  obtain ⟨heap, hR⟩ := h.rings
  exact ((h.rest.kTskCreate h0 taskEntry prio stackSize).both
    (hR.kTskCreate taskEntry prio stackSize)).imp fun _ hr => h.rescheduled hr.1 hr.2

omit h0 in
/-- The mailbox of the running task is there. -/
theorem Channel.newMailbox {mem : Mem} {a size : Nat} {heap : Heap}
    (hact : (k.mailbox (.task k.current)).active = false)
    (hg : Rings { k with
      ram1 := mem.ram1, ram2 := mem.ram2, errno := mem.errno
      mailbox := Function.update k.mailbox (.task k.current) ⟨true, Mb.create a size⟩ } heap q) :
    Channel R { k with
      ram1 := mem.ram1, ram2 := mem.ram2, errno := mem.errno
      mailbox := Function.update k.mailbox (.task k.current) ⟨true, Mb.create a size⟩ } L q tr := by
  -- the mailboxes in use are the old ones
  have hold : ∀ m, (k.mailbox m).active = true → Function.update k.mailbox (.task k.current)
      ⟨true, Mb.create a size⟩ m = k.mailbox m := fun m hm =>
    Function.update_of_ne (fun e => by rw [e, hact] at hm; cases hm) _ _
  have hwait : ∀ {m t}, t ∈ L (.waiting m) → _ := fun {m t} ht => hold m (h.active_of_waiting ht)
  refine ⟨⟨h.rest.newMailbox mem _, ⟨heap, hg⟩, h.copied, fun m t ht => ?_, fun u hu => ?_,
    fun u p hu => ?_, fun m hm => h.unused m ?_⟩, fun m t l buf hL hb => ?_⟩
  · obtain ⟨buf, h1, h2, h3⟩ := h.waiting m t ht
    exact ⟨buf, h1, h2, h3.trans_eq (congrArg (·.memoryBuffer.capacity) (hwait ht)).symm⟩
  · obtain ⟨h1, h2⟩ := h.idle u hu
    exact ⟨(congrArg Mailbox.active (hold _ h1)).trans h1, h2⟩
  · obtain ⟨h1, h2, h3, h4⟩ := h.pend u p hu
    exact ⟨h1, (congrArg Mailbox.active (hold _ h2)).trans h2,
      (congrArg (R ·.memoryBuffer.capacity p.len) (hold _ h2)).mpr h3, h4⟩
  · by_contra hne
    have hm' := Bool.eq_true_of_not_eq_false hne
    change (Function.update k.mailbox _ _ m).active = false at hm
    rw [hold m hm', hm'] at hm
    cases hm
  · have hm := hwait (hL ▸ List.mem_cons_self : t ∈ L (.waiting m))
    exact (congrArg (·.memoryBuffer.capacity) hm).trans_lt (h.full m t l buf hL hb)

theorem Channel.kMbxCreate (size : Nat) :
    Post (k.kMbxCreate size) fun r => Carried R r.1 tr := by
  refine (h.rest.kMbxCreate_spec h0 size).imp fun r hr => ?_
  obtain ⟨e, he⟩ | ⟨m, ptr, hal, hact, hsize, hr⟩ := hr
  · rw [he]
    exact (h.setErrno e).carried
  obtain ⟨heap, hR⟩ := h.rings
  obtain ⟨m', ptr', hal', hpool, hblk⟩ := mpoolAlloc_heap .iram2 hR.inv hR.pool size
  obtain ⟨rfl, rfl⟩ := Prod.mk.inj (Option.some.inj ((mpoolAlloc_mem hal').symm.trans hal))
  have hram1 : m'.ram1 = k.ram1 := hpool .iram1 (by decide)
  obtain ⟨rfl, hram2⟩ | ⟨a, rfl, hheap⟩ := hblk
  · obtain ⟨-, hr⟩ | ⟨a, e, -⟩ := hr
    · rw [hr]
      exact h.mem { m' with errno := .ENOMEM } hram2
    · cases e
  · obtain ⟨e, -⟩ | ⟨a', e, hr⟩ := hr
    · cases e
    obtain rfl := Option.some.inj e
    rw [hr]
    exact (h.newMailbox hact (hR.create hheap hact hsize rfl rfl rfl)).carried

end Calls

/-! ## 2. The calls that move no message -/

section TasksOnly

/-- Changing the tasks, the running task and the clock. -/
theorem TasksOnly.tasks {k₁ : Kernel} (h : TasksOnly k k₁) (s : Tasks Tid QId) (c : Tid) (n : Nat) :
    TasksOnly k { k₁ with toTasks := s, current := c, timerCount := n } :=
  ⟨⟨h.bytes, h.ram1, h.ram2⟩, h.mailbox, h.pend⟩

namespace Kernel

variable (k : Kernel)

theorem pushTail_tasksOnly (t : Tid) (q : QId) : Post (k.pushTail t q) (TasksOnly k) :=
  Ends.bind Ends.trivial fun _ _ => ⟨⟨rfl, rfl, rfl⟩, rfl, rfl⟩

theorem popTask_tasksOnly (t : Tid) (q : QId) : Post (k.popTask t q) (TasksOnly k) :=
  Ends.bind Ends.trivial fun _ _ => ⟨⟨rfl, rfl, rfl⟩, rfl, rfl⟩

theorem scheduler_tasksOnly : TasksOnly k k.scheduler.1 := by
  unfold scheduler
  split
  · exact TasksOnly.refl k
  · exact (TasksOnly.refl k).tasks _ _ _

theorem runScheduled_tasksOnly : TasksOnly k k.runScheduled :=
  k.scheduler_tasksOnly.tasks _ _ _

theorem changePrio_tasksOnly (t : Tid) (taskId prio : Nat) :
    Post (k.changePrio t taskId prio) (TasksOnly k) := by
  have hset : ∀ {k₁ : Kernel} (u : Tid), TasksOnly k k₁ → TasksOnly k (k₁.setPrio u prio) :=
    fun _ h => h.tasks _ _ _
  have hblocked : TasksOnly k
      (if (k.tcb t).state = .blkRecv ∨ (k.tcb t).state = .blkSend then k.setPrio t prio else k) := by
    split
    · exact hset t (TasksOnly.refl k)
    · exact TasksOnly.refl k
  unfold changePrio
  simp only
  generalize (if (k.tcb t).state = .blkRecv ∨ (k.tcb t).state = .blkSend then k.setPrio t prio
    else k) = k₁ at hblocked ⊢
  refine Ends.ite (fun _ => hset t hblocked) fun _ => Ends.ite (fun _ => hblocked) fun _ => ?_
  refine Ends.ite (fun _ => ?_) fun _ => Ends.ite (fun _ => ?_) fun _ => ?_
  · refine Ends.bind Ends.trivial fun i _ => Ends.bind (popTask_tasksOnly _ _ _) fun k₂ h2 => ?_
    exact Ends.bind Ends.trivial fun _ _ =>
      hblocked.trans ⟨⟨h2.bytes, h2.ram1, h2.ram2⟩, h2.mailbox, h2.pend⟩
  · refine Ends.ite (fun _ => ?_) fun _ => hblocked
    refine Ends.ite (fun _ => ?_) fun _ => hset _ hblocked
    refine Ends.bind Ends.trivial fun i _ => Ends.bind Ends.trivial fun j _ => ?_
    exact Ends.bind (pushTail_tasksOnly _ _ _) fun k₂ h2 =>
      hblocked.trans ⟨⟨h2.bytes, h2.ram1, h2.ram2⟩, h2.mailbox, h2.pend⟩
  · refine Ends.bind Ends.trivial fun i _ => Ends.bind (popTask_tasksOnly _ _ _) fun k₂ h2 => ?_
    refine Ends.bind Ends.trivial fun j _ => (pushTail_tasksOnly k₂ _ _).imp fun k₃ h3 => ?_
    exact (hblocked.trans ⟨⟨h2.bytes, h2.ram1, h2.ram2⟩, h2.mailbox, h2.pend⟩).trans h3

theorem kTskSetPrio_tasksOnly (taskId prio : Nat) :
    Post (k.kTskSetPrio taskId prio) fun r => TasksOnly k r.1 := by
  refine (k.kTskSetPrio_spec taskId prio).imp fun r hr => ?_
  obtain ⟨-, e, he⟩ | ⟨t, rfl, -, hk⟩ := hr
  · rw [he]
    exact ⟨⟨rfl, rfl, rfl⟩, rfl, rfl⟩
  · exact (k.changePrio_tasksOnly _ _ _).of_ok hk

theorem releaseDue_tasksOnly (fuel : Nat) (v : Option Tid) :
    Post (releaseDue fuel k v) (TasksOnly k) := by
  induction fuel generalizing k v with
  | zero =>
      cases v with
      | none => exact TasksOnly.refl k
      | some t => exact trivial
  | succ fuel ih =>
      cases v with
      | none => exact TasksOnly.refl k
      | some t =>
          unfold releaseDue
          refine Ends.ite (fun _ => ?_) fun _ => ih k _
          refine Ends.bind (k.popTask_tasksOnly _ _) fun k₁ h1 => Ends.bind Ends.trivial fun q _ => ?_
          refine Ends.bind (pushTail_tasksOnly _ _ _) fun k₂ h2 => (ih k₂ _).imp fun k₃ h3 => ?_
          exact ((h1.tasks _ _ _).trans h2).trans h3

theorem putBack_tasksOnly (t : Tid) : Post (k.putBack t) (TasksOnly k) :=
  Ends.bind Ends.trivial fun _ _ => (TasksOnly.refl k).tasks _ _ _

theorem preempt_tasksOnly : Post k.preempt (TasksOnly k) := by
  have hs := k.scheduler_tasksOnly
  unfold preempt preemptNull preemptRealTime preemptOther
  generalize k.scheduler = x at hs ⊢
  obtain ⟨k₁, t⟩ := x
  have hsw : TasksOnly k (if ((k₁.switchTo t).tcb t).realTime = true then
      (k₁.switchTo t).countExecution t else k₁.switchTo t) := by
    split
    · exact hs.tasks _ _ _
    · exact hs.tasks _ _ _
  have hback : Post (k₁.putBack t) (TasksOnly k) :=
    (k₁.putBack_tasksOnly t).imp fun _ h => hs.trans h
  refine Ends.ite (fun _ => ?_) fun _ => Ends.ite (fun _ => ?_) fun _ => ?_
  · change TasksOnly k (if t ≠ tidNull then _ else k₁)
    split
    · exact hsw
    · exact hs
  · refine Ends.ite (fun _ => hsw) fun _ => Ends.ite (fun _ => ?_) fun _ => TasksOnly.refl k
    refine Ends.ite (fun _ => Ends.ite (fun _ => ?_) fun _ => hback) fun _ => hback
    refine Ends.bind Ends.trivial fun q _ => Ends.bind (pushTail_tasksOnly _ _ _) fun k₂ h2 => ?_
    exact (hs.trans h2).tasks _ _ _
  · refine Ends.ite (fun _ => Ends.ite (fun _ => ?_) fun _ => hback) fun _ => hs
    exact Ends.bind Ends.trivial fun _ _ => hs.tasks _ _ _

theorem timer0IrqHandler_tasksOnly (tc pc : Nat) :
    Post (k.timer0IrqHandler tc pc) (TasksOnly k) := by
  unfold timer0IrqHandler
  simp only
  split
  · exact trivial
  · refine Ends.bind (releaseDue_tasksOnly _ _ _) fun k₁ h1 => k₁.preempt_tasksOnly.imp fun k₂ h2 => ?_
    exact (TasksOnly.trans ((TasksOnly.refl k).tasks _ _ _) h1).trans h2

theorem kRtTskSet_tasksOnly (tv : Timeval) :
    Post (k.kRtTskSet tv) fun r => TasksOnly k r.1 := by
  unfold kRtTskSet
  refine Ends.ite (fun _ => (TasksOnly.refl k).tasks _ _ _) fun _ => ?_
  refine Ends.ite (fun _ => (TasksOnly.refl k).tasks _ _ _) fun _ => ?_
  refine Ends.bind Ends.trivial fun i _ => Ends.bind (pushTail_tasksOnly _ _ _) fun k₁ h1 => ?_
  exact TasksOnly.trans ⟨⟨h1.bytes, h1.ram1, h1.ram2⟩, h1.mailbox, h1.pend⟩
    k₁.runScheduled_tasksOnly

theorem kRtTskSusp_tasksOnly : Post k.kRtTskSusp fun r => TasksOnly k r.1 := by
  unfold kRtTskSusp
  refine Ends.ite (fun _ => (TasksOnly.refl k).tasks _ _ _) fun _ => ?_
  refine Ends.bind (pushTail_tasksOnly _ _ _) fun k₁ h1 => ?_
  exact TasksOnly.trans ⟨⟨h1.bytes, h1.ram1, h1.ram2⟩, h1.mailbox, h1.pend⟩
    k₁.runScheduled_tasksOnly

end Kernel

end TasksOnly

section Still

variable (h : Channel R k L q tr)
include h

/-- A call that asks a question. -/
theorem Channel.unchanged (hk : Unchanged k k') : Carried R k' tr := by
  rcases hk with rfl | ⟨e, rfl⟩
  · exact h.carried
  · exact (h.setErrno e).carried

theorem Channel.memAlloc (size : Nat) :
    Post (k.mpoolAlloc mpidIram1 size) fun r => Carried R r.1 tr := by
  unfold Kernel.mpoolAlloc
  rw [show kMpoolAlloc k.mem mpidIram1 size = _ from Pools.kMpoolAlloc_eq k.mem .iram1 size]
  cases (k.mem.pool .iram1).alloc PoolId.iram1.cfg size with
  | none => exact trivial
  | some x =>
      cases x with
      | error e => exact h.mem (k.mem.fail e) rfl
      | ok x => exact h.mem (k.mem.setPool .iram1 x.1) rfl

theorem Channel.memDealloc (ptr : Option Nat) :
    Post (k.mpoolDealloc mpidIram1 ptr) fun r => Carried R r.1 tr := by
  unfold Kernel.mpoolDealloc
  cases ptr with
  | none => exact h.mem k.mem rfl
  | some a =>
      rw [show kMpoolDealloc k.mem mpidIram1 (some a) = _ from
        Pools.kMpoolDealloc_eq k.mem .iram1 a]
      cases (k.mem.pool .iram1).dealloc PoolId.iram1.cfg (some a) with
      | none => exact trivial
      | some x =>
          cases x with
          | error e => exact h.mem (k.mem.fail e) rfl
          | ok p => exact h.mem (k.mem.setPool .iram1 p) rfl

theorem Channel.kTskExit : Carried R k.kTskExit tr := by
  obtain ⟨L', h1, -, h2⟩ := h.rest.kTskExit
  exact (h.still h1 k.runScheduled_tasksOnly h2).carried

variable (h0 : k.current ≠ tidNull)

include h0 in
theorem Channel.kTskSetPrio {taskId prio : Nat} (hin : ¬ k.PromotesInside taskId prio) :
    Post (k.kTskSetPrio taskId prio) fun r => Carried R r.1 tr := by
  refine ((h.rest.kTskSetPrio h0 hin).both (k.kTskSetPrio_tasksOnly taskId prio)).imp
    fun r hr => ?_
  obtain ⟨⟨L', h1, -, -, h2⟩, h3⟩ := hr
  exact (h.still h1 h3 h2).carried

/-- A call that is refused or gives up the processor. -/
theorem Channel.switched {r : Kernel × Int}
    (hr : (r.2 = rtxErr ∧ ∃ e, r.1 = k.setErrno e) ∨ Switched k.data L r.1)
    (ht : TasksOnly k r.1) : Carried R r.1 tr := by
  obtain ⟨-, e, he⟩ | ⟨L', h1, -, h2⟩ := hr
  · rw [he]
    exact (h.setErrno e).carried
  · exact (h.still h1 ht h2).carried

include h0 in
theorem Channel.kRtTskSet (hp : k.pend k.current = none) (tv : Timeval) :
    Post (k.kRtTskSet tv) fun r => Carried R r.1 tr :=
  ((h.rest.kRtTskSet h0 hp tv).both (k.kRtTskSet_tasksOnly tv)).imp
    fun _ hr => h.switched hr.1 hr.2

theorem Channel.kRtTskSusp : Post k.kRtTskSusp fun r => Carried R r.1 tr :=
  (h.rest.kRtTskSusp.both k.kRtTskSusp_tasksOnly).imp fun _ hr => h.switched hr.1 hr.2

theorem Channel.timer0IrqHandler (tc pc : Nat) :
    Post (k.timer0IrqHandler tc pc) fun k' => Carried R k' tr := by
  refine ((h.rest.timer0IrqHandler tc pc).both (k.timer0IrqHandler_tasksOnly tc pc)).imp
    fun k' hk' => ?_
  obtain ⟨⟨-, L', h1, h2⟩, h3⟩ := hk'
  exact (h.still h1 h3 h2).carried

end Still

/-! ## 3. One event -/

section Exec

variable (h : Channel R k L q tr)
include h

/-- A call. -/
theorem Channel.svcHandler {c : Call} (hl : k.Legal (.call c)) (ht : k.Tame (.call c))
    (hlen : ∀ b len, c = .mbxRecv b len → b.isSome → R (k.ring (.task k.current)).capacity len) :
    Post (k.svcHandler c) fun r => Carried R r.1 (tr.record k (.call c) r.2) := by
  obtain ⟨hp, hnull⟩ := hl
  by_cases hy : c = .tskYield
  · subst hy
    exact Ends.bind h.kTskYield fun _ hr => hr
  have h0 : k.current ≠ tidNull := fun e => hy (hnull e)
  cases c with
  | memAlloc size => exact Ends.bind (h.memAlloc size) fun _ hr => hr
  | memDealloc ptr => exact Ends.bind (h.memDealloc ptr) fun _ hr => hr
  | tskCreate taskEntry prio stackSize => exact Ends.bind (h.kTskCreate h0 _ _ _) fun _ hr => hr
  | tskExit => exact h.kTskExit
  | tskYield => exact absurd rfl hy
  | tskSetPrio taskId prio => exact Ends.bind (h.kTskSetPrio h0 ht) fun _ hr => hr
  | tskGet tid buffer msp psp =>
      exact Ends.bind (k.kTskGet_unchanged _ _ _ _) fun _ hr => h.unchanged hr
  | tskGettid => exact h.carried
  | tskLs buf count => exact h.unchanged (k.kTskLs_unchanged buf count)
  | mbxCreate size => exact Ends.bind (h.kMbxCreate h0 size) fun _ hr => hr
  | mbxSend receiverTid buf => exact Ends.bind (h.kSendMsg _ _ h0 ht) fun _ hr => hr
  | mbxSendNb receiverTid buf => exact Ends.bind (h.kSendMsgNb _ _ fun _ => h0) fun _ hr => hr
  | mbxRecv buf len => exact Ends.bind (h.kRecvMsg h0 hp ht (hlen buf len rfl)) fun _ hr => hr
  | mbxRecvNb buf len => exact Ends.bind (h.kRecvMsgNb h0 hp ht) fun _ hr => hr
  | mbxLs buf count => exact h.unchanged (k.kMbxLs_unchanged buf count)
  | mbxGet tid => exact Ends.bind (k.kMbxGet_unchanged _) fun _ hr => h.unchanged hr
  | rtTskSet tv => exact Ends.bind (h.kRtTskSet h0 hp tv) fun _ hr => hr
  | rtTskSusp => exact Ends.bind h.kRtTskSusp fun _ hr => hr
  | rtTskGet tid buffer => exact Ends.bind (k.kRtTskGet_unchanged _ _) fun _ hr => h.unchanged hr

/-- **The step lemma.** -/
theorem Channel.exec (hl : k.Legal e) (ht : k.Tame e)
    (hlen : ∀ b len, e = .call (.mbxRecv b len) → b.isSome →
      R (k.ring (.task k.current)).capacity len)
    (hfit : e = .resume → ∀ p ∈ k.pend k.current, ∀ x ∈ (q (.task k.current)).head?,
      x.length ≤ p.len)
    (hover : ∀ t buf, e ≠ .overwrite t buf) :
    Post (k.exec e) fun r => Carried R r.1 (tr.record k e r.2) := by
  cases e with
  | call c => exact h.svcHandler hl ht fun b len hc => hlen b len (congrArg Event.call hc)
  | resume =>
      unfold Kernel.exec
      cases hp : k.pend k.current with
      | none => exact absurd hp hl
      | some p => exact Ends.bind (h.resumeRecv hp (hfit rfl p hp)) fun _ hr => hr
  | timer tc pc => exact Ends.bind (h.timer0IrqHandler tc pc) fun _ hr => hr
  | overwrite t buf => exact absurd rfl (hover t buf)

end Exec

/-- The step of a run with books. -/
theorem Traffic.step_eq_some {s s' : Kernel × Traffic} :
    Traffic.step s e = some s' ↔
      ∃ r, s.1.exec e = .ok (s'.1, r) ∧ s'.2 = s.2.record s.1 e r := by
  unfold Traffic.step
  cases s.1.exec e with
  | error f => simp
  | ok x =>
      obtain ⟨k₁, r⟩ := x
      obtain ⟨k₂, tr₂⟩ := s'
      simp only [Option.some.injEq, Prod.mk.injEq, Except.ok.injEq]
      refine ⟨fun ⟨h1, h2⟩ => ⟨r, ⟨h1, rfl⟩, h2.symm⟩, fun ⟨r', ⟨h1, h2⟩, h3⟩ => ?_⟩
      exact ⟨h1, by rw [h3, h2]⟩

end Rtx
