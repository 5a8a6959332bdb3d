/-
  File:      Rtx/Kern/Faults.lean
  Subject:   How the calls can fail, in any state, and the bounds of the task ids.

  Each access has one way to fail. From these: the calls that take a task id check it before they
  use it, or they do not. `k_tsk_set_prio` and `k_tsk_get` do; the sends, `k_mbx_get` and
  `k_rt_tsk_get` read `g_tcbs[id]` first (`ids_checked`, `send_outside`).
-/
import Rtx.Kern.Guard
import Rtx.Kern.RestStep

namespace Rtx

open Lib

variable {k k' : Kernel} {t : Tid}

/-! ## 1. The accesses -/

theorem tcbAt_ends (id : Nat) :
    Ends (tcbAt id) (fun e => e = .tcbIndex ∧ ¬ id < 16) fun t => t.val = id := by
  unfold tcbAt
  split
  · exact rfl
  next h => exact ⟨rfl, h⟩

theorem mbxAt_ends (id : Nat) :
    Ends (mbxAt id) (fun e => e = .mbxIndex ∧ ¬ id < 16)
      fun m => ∃ t : Tid, m = .task t ∧ t.val = id := by
  unfold mbxAt
  split
  next h => exact ⟨⟨id, h⟩, rfl, rfl⟩
  next h => exact ⟨rfl, h⟩

theorem Mb.copyIn_ends (mb : Mb) (bytes : Nat → UInt8) (a : Nat) (buf : Buf) (n : Nat) :
    Ends (mb.copyIn bytes a buf n) (· = .ringBounds) fun _ => True := by
  unfold Mb.copyIn
  exact Ends.ite (fun _ => Ends.ite (fun _ => True.intro) fun _ => rfl)
    fun _ => Ends.ite (fun _ => True.intro) fun _ => rfl

theorem Mb.copyOut_ends (mb : Mb) (bytes : Nat → UInt8) (a : Nat) (buf : Buf) (d n : Nat) :
    Ends (mb.copyOut bytes a buf d n) (· = .ringBounds) fun _ => True := by
  unfold Mb.copyOut
  exact Ends.ite (fun _ => Ends.ite (fun _ => True.intro) fun _ => rfl)
    fun _ => Ends.ite (fun _ => True.intro) fun _ => rfl

theorem Mb.pushBuffer_ends (mb : Mb) (bytes : Nat → UInt8) (buf : Buf) :
    Ends (mb.pushBuffer bytes buf) (· = .ringBounds) fun _ => True := by
  unfold Mb.pushBuffer
  refine Ends.ite (fun _ => True.intro) fun _ => ?_
  exact Ends.bind (Mb.copyIn_ends _ _ _ _ _) fun _ _ => True.intro

theorem Mb.popBuffer_ends (mb : Mb) (bytes : Nat → UInt8) (buf : Buf) (len : Nat) :
    Ends (mb.popBuffer bytes buf len) (· = .ringBounds) fun _ => True := by
  unfold Mb.popBuffer
  refine Ends.ite (fun _ => True.intro) fun _ => ?_
  refine Ends.ite (fun _ => True.intro) fun _ => ?_
  refine Ends.bind (Mb.copyOut_ends _ _ _ _ _ _) fun r _ => ?_
  refine Ends.ite (fun _ => True.intro) fun _ => ?_
  generalize sub32 r.1.length msgHdrSize = n
  exact Ends.bind (Mb.copyOut_ends _ _ _ _ _ _) fun _ _ => True.intro

namespace Kernel

variable (k) (m : MbxId) (buf : Buf)

theorem pushBuffer_ends : Ends (k.pushBuffer m buf) (· = .ringBounds) fun k' =>
    ∃ mb bytes, k' = { k.setRing m mb with bytes } :=
  Ends.bind (Mb.pushBuffer_ends _ _ _) fun _ _ => ⟨_, _, rfl⟩

theorem popBuffer_ends (len : Nat) : Ends (k.popBuffer m buf len) (· = .ringBounds) fun r =>
    ∃ mb, r.1 = k.setRing m mb :=
  Ends.bind (Mb.popBuffer_ends _ _ _ _) fun _ _ => ⟨_, rfl⟩

theorem mpoolAlloc_ends (mpid : Int) (size : Nat) :
    Ends (k.mpoolAlloc mpid size) (· = .pool) fun r => ∃ m : Mem, r.1 =
      { k with ram1 := m.ram1, ram2 := m.ram2, errno := m.errno } := by
  unfold Kernel.mpoolAlloc
  split
  · exact rfl
  · exact ⟨_, rfl⟩

theorem mpoolDealloc_ends (mpid : Int) (ptr : Option Nat) :
    Ends (k.mpoolDealloc mpid ptr) (· = .pool) fun r => ∃ m : Mem, r.1 =
      { k with ram1 := m.ram1, ram2 := m.ram2, errno := m.errno } := by
  unfold Kernel.mpoolDealloc
  split
  · exact rfl
  · exact ⟨_, rfl⟩

theorem pushTail_tasks (t : Tid) (q : QId) :
    Post (k.pushTail t q) fun k' => ∃ s, k' = { k with toTasks := s } :=
  Ends.bind Ends.trivial fun s _ => ⟨s, rfl⟩

end Kernel

/-- The checks of a send fail exactly outside the ids of the tasks and of the UART. -/
theorem Kernel.checkSend_ends (k : Kernel) (receiverTid : Nat) (buf : Buf) :
    Ends (k.checkSend receiverTid buf)
      (fun e => e = .tcbIndex ∧ ¬ (receiverTid < 16 ∨ receiverTid = tidUart))
      fun _ => receiverTid < 16 ∨ receiverTid = tidUart := by
  have hlast : ∀ m, receiverTid < 16 ∨ receiverTid = tidUart →
      Ends (if (k.mailbox m).active = false then pure (Except.error Errno.ENOENT)
        else if buf.length > (k.ring m).capacity then pure (Except.error Errno.EMSGSIZE)
        else pure (Except.ok m) : Except Fault (Except Errno MbxId))
        (fun e => e = .tcbIndex ∧ ¬ (receiverTid < 16 ∨ receiverTid = tidUart))
        fun _ => receiverTid < 16 ∨ receiverTid = tidUart := fun m hid =>
    Ends.ite (fun _ => hid) fun _ => Ends.ite (fun _ => hid) fun _ => hid
  unfold Kernel.checkSend
  refine Ends.ite (fun hne => ?_) fun he => ?_
  · by_cases hlt : receiverTid < 16
    · have hid : receiverTid < 16 ∨ receiverTid = tidUart := Or.inl hlt
      refine Ends.bind_ok (a := (⟨receiverTid, hlt⟩ : Tid)) (by unfold tcbAt; rw [dif_pos hlt]) ?_
      refine Ends.ite (fun _ => hid) fun _ => ?_
      refine Ends.ite (fun _ => hid) fun _ => ?_
      refine Ends.ite (fun e => absurd e hne) fun _ => ?_
      refine Ends.bind_ok (a := .task ⟨receiverTid, hlt⟩) (by unfold mbxAt; rw [dif_pos hlt]) ?_
      exact hlast _ hid
    · rw [show tcbAt receiverTid = .error .tcbIndex by unfold tcbAt; rw [dif_neg hlt]]
      exact ⟨rfl, not_or.mpr ⟨hlt, hne⟩⟩
  · have hid : receiverTid < 16 ∨ receiverTid = tidUart := Or.inr (not_not.mp he)
    refine Ends.ite (fun _ => hid) fun _ => ?_
    exact Ends.ite (fun _ => hlast _ hid) fun hne => absurd (not_not.mp he) hne

theorem Kernel.recvMbx_ends (k : Kernel) : Ends k.recvMbx (· = .mbxIndex) fun _ => True := by
  unfold Kernel.recvMbx
  refine Ends.ite (fun _ => trivial) fun _ => ?_
  exact (mbxAt_ends _).mono (fun _ => And.left) fun _ _ => trivial

/-! ## 2. The calls that take a task id -/

/-- A fault other than an index outside `g_tcbs` or `g_mailboxes`. -/
def NoId (e : Fault) : Prop := e ≠ .tcbIndex ∧ e ≠ .mbxIndex

theorem Tasks.QueueFault.noId {e : Fault} (h : Tasks.QueueFault e) : NoId e := by
  rcases h with rfl | rfl <;> exact ⟨fun h => (by cases h), fun h => (by cases h)⟩

theorem readyAt_ends (order : Int) : Ends (readyAt order) NoId fun _ => True := by
  unfold readyAt
  split
  · exact trivial
  · exact ⟨fun h => (by cases h), fun h => (by cases h)⟩

namespace Kernel

variable (k) (m : MbxId) (buf : Buf)

theorem pushTail_ends (t : Tid) (q : QId) : Ends (k.pushTail t q) NoId fun _ => True :=
  Ends.bind (((Tasks.Guarded.trivial k.toTasks).pushTail Tasks.Closed.trivial trivial).mono
    (fun _ => Tasks.QueueFault.noId) fun _ => id) fun _ _ => trivial

theorem popTask_ends (t : Tid) (q : QId) : Ends (k.popTask t q) NoId fun _ => True :=
  Ends.bind (((Tasks.Guarded.trivial k.toTasks).popTask Tasks.Closed.trivial).mono
    (fun _ => Tasks.QueueFault.noId) fun _ => id) fun _ _ => trivial

theorem changePrio_ends (t : Tid) (taskId prio : Nat) :
    Ends (k.changePrio t taskId prio) NoId fun _ => True := by
  unfold Kernel.changePrio
  generalize (if (k.tcb t).state = .blkRecv ∨ (k.tcb t).state = .blkSend then k.setPrio t prio
    else k) = k₁
  refine Ends.ite (fun _ => trivial) fun _ => ?_
  refine Ends.ite (fun _ => trivial) fun _ => ?_
  refine Ends.ite (fun _ => ?_) fun _ => ?_
  · -- `promote`
    refine Ends.bind (readyAt_ends _) fun q _ => Ends.bind (popTask_ends _ _ _) fun k₂ _ => ?_
    exact Ends.bind (readyAt_ends _) fun q _ => trivial
  refine Ends.ite (fun _ => Ends.ite (fun _ => ?_) fun _ => trivial) fun _ => ?_
  · -- `demoteSelf`
    refine Ends.ite (fun _ => ?_) fun _ => trivial
    refine Ends.bind (readyAt_ends _) fun q _ => Ends.bind (readyAt_ends _) fun q _ => ?_
    exact Ends.bind (pushTail_ends _ _ _) fun _ _ => trivial
  · -- `requeue`
    refine Ends.bind (readyAt_ends _) fun q _ => Ends.bind (popTask_ends _ _ _) fun k₂ _ => ?_
    exact Ends.bind (readyAt_ends _) fun q _ => pushTail_ends _ _ _

theorem deliver_ends (preempt : Bool) : Ends (k.deliver m buf preempt) NoId fun _ => True := by
  refine Ends.bind ((k.pushBuffer_ends m buf).mono (fun e he => he ▸ ⟨fun h => (by cases h),
    fun h => (by cases h)⟩) fun _ _ => trivial) fun k₁ _ => ?_
  cases m with
  | uart => exact trivial
  | task t =>
      refine Ends.ite (fun _ => ?_) fun _ => trivial
      refine Ends.bind (readyAt_ends _) fun q _ => Ends.bind (pushTail_ends _ _ _) fun k₂ _ => ?_
      refine Ends.ite (fun _ => ?_) fun _ => trivial
      exact Ends.bind (readyAt_ends _) fun q _ => trivial

theorem blockSend_ends : Ends (k.blockSend m buf) NoId fun _ => True :=
  Ends.bind (pushTail_ends _ _ _) fun _ _ => trivial

/-! ## 3. What each call does with an id -/

theorem kTskSetPrio_ends (taskId prio : Nat) :
    Ends (k.kTskSetPrio taskId prio) (fun e => NoId e ∧ taskId < 16) fun r =>
      ¬ taskId < 16 → r.2 = rtxErr ∧ Unchanged k r.1 := by
  unfold kTskSetPrio
  refine Ends.ite (fun _ _ => ⟨rfl, Or.inr ⟨_, rfl⟩⟩) fun hid => ?_
  have hlt : taskId < 16 := by
    unfold maxTasks at hid
    omega
  rw [ends_bind]
  refine (tcbAt_ends taskId).mono (fun e he => absurd hlt he.2) fun t _ => ?_
  refine Ends.ite (fun _ h => absurd hlt h) fun _ => ?_
  refine Ends.ite (fun _ h => absurd hlt h) fun _ => ?_
  refine Ends.ite (fun _ h => absurd hlt h) fun _ => ?_
  refine Ends.ite (fun _ h => absurd hlt h) fun _ => ?_
  exact Ends.bind ((k.changePrio_ends t taskId prio).mono (fun _ h => ⟨h, hlt⟩) fun _ => id)
    fun _ _ h => absurd hlt h

theorem kTskGet_ends (tid : Nat) (buffer : Bool) (msp psp : Nat) :
    Ends (k.kTskGet tid buffer msp psp) (fun _ => False) fun r =>
      Unchanged k r.1 ∧ (¬ tid < 16 → r.2.1 = rtxErr) := by
  unfold kTskGet
  refine Ends.ite (fun _ => ⟨Or.inr ⟨_, rfl⟩, fun _ => rfl⟩) fun _ => ?_
  refine Ends.ite (fun _ => ⟨Or.inr ⟨_, rfl⟩, fun _ => rfl⟩) fun hid => ?_
  have hlt : tid < 16 := by
    unfold maxTasks at hid
    omega
  rw [ends_bind]
  exact (tcbAt_ends tid).mono (fun e he => absurd hlt he.2) fun t _ =>
    ⟨Or.inl rfl, fun h => absurd hlt h⟩

theorem kMbxGet_ends (tid : Nat) : Ends (k.kMbxGet tid) (fun e => e = .tcbIndex ∧ ¬ tid < 16)
    fun r => Unchanged k r.1 ∧ tid < 16 := by
  unfold kMbxGet
  refine Ends.bind (P := fun _ => tid < 16) ?_ fun t hlt => ?_
  · exact (tcbAt_ends tid).imp fun t ht => ht ▸ t.isLt
  refine Ends.ite (fun _ => ⟨Or.inr ⟨_, rfl⟩, hlt⟩) fun _ => ?_
  rw [ends_bind]
  refine (mbxAt_ends tid).mono (fun e he => absurd hlt he.2) fun m _ => ?_
  exact Ends.ite (fun _ => ⟨Or.inr ⟨_, rfl⟩, hlt⟩) fun _ => ⟨Or.inl rfl, hlt⟩

theorem kRtTskGet_ends (tid : Nat) (buffer : Bool) :
    Ends (k.kRtTskGet tid buffer)
      (fun e => e = .tcbIndex ∧ ¬ (buffer = false ∨ tid < 16)) fun r =>
      Unchanged k r.1 ∧ (buffer = false ∨ tid < 16) ∧ (¬ tid < 16 → r.2.1 = rtxErr) := by
  unfold kRtTskGet
  refine Ends.ite (fun hb => ⟨Or.inl rfl, Or.inl hb, fun _ => rfl⟩) fun hb => ?_
  rw [ends_bind]
  refine (tcbAt_ends tid).mono (fun e he => ⟨he.1, not_or.mpr ⟨hb, he.2⟩⟩) fun t ht => ?_
  have hlt : tid < 16 := ht ▸ t.isLt
  refine Ends.ite (fun _ => ⟨Or.inr ⟨_, rfl⟩, Or.inr hlt, fun h => absurd hlt h⟩) fun _ => ?_
  refine Ends.ite (fun _ => ⟨Or.inr ⟨_, rfl⟩, Or.inr hlt, fun h => absurd hlt h⟩) fun _ => ?_
  exact ⟨Or.inl rfl, Or.inr hlt, fun h => absurd hlt h⟩

/-- Both sends read `g_tcbs[receiverTid]` before anything else. -/
theorem send_ends {f : Except Errno MbxId → Except Fault (Kernel × Int)}
    (hf : ∀ r, Ends (f r) NoId fun _ => True) (receiverTid : Nat) :
    Ends (k.checkSend receiverTid buf >>= f)
      (fun e => e ≠ .mbxIndex ∧ (e = .tcbIndex ↔ ¬ (receiverTid < 16 ∨ receiverTid = tidUart)))
      fun _ => receiverTid < 16 ∨ receiverTid = tidUart := by
  rw [ends_bind]
  refine (k.checkSend_ends receiverTid buf).mono (fun e he => ?_) fun r hid => ?_
  · exact ⟨he.1 ▸ fun h => (by cases h), fun _ => he.2, fun _ => he.1⟩
  · exact (hf r).mono (fun e he => ⟨he.2, fun h => absurd h he.1, fun h => absurd hid h⟩)
      fun _ _ => hid

theorem kSendMsg_ends (receiverTid : Nat) : Ends (k.kSendMsg receiverTid buf)
    (fun e => e ≠ .mbxIndex ∧ (e = .tcbIndex ↔ ¬ (receiverTid < 16 ∨ receiverTid = tidUart)))
    fun _ => receiverTid < 16 ∨ receiverTid = tidUart := by
  refine k.send_ends buf (fun r => ?_) receiverTid
  cases r with
  | error e => exact trivial
  | ok m =>
      refine Ends.ite (fun _ => ?_) fun _ => ?_
      · exact Ends.bind (k.deliver_ends m buf true) fun _ _ => trivial
      · exact Ends.bind (k.blockSend_ends m buf) fun _ _ => trivial

theorem kSendMsgNb_ends (receiverTid : Nat) : Ends (k.kSendMsgNb receiverTid buf)
    (fun e => e ≠ .mbxIndex ∧ (e = .tcbIndex ↔ ¬ (receiverTid < 16 ∨ receiverTid = tidUart)))
    fun _ => receiverTid < 16 ∨ receiverTid = tidUart := by
  refine k.send_ends buf (fun r => ?_) receiverTid
  cases r with
  | error e => exact trivial
  | ok m =>
      refine Ends.ite (fun _ => ?_) fun _ => trivial
      exact Ends.bind (k.deliver_ends m buf _) fun _ _ => trivial

end Kernel

/-! ## 4. The bounds of the task ids -/

/-- The task id a call takes. -/
def Call.taskId : Call → Option Nat
  | .tskSetPrio id _ | .tskGet id .. | .mbxGet id | .rtTskGet id _ | .mbxSend id _
  | .mbxSendNb id _ => some id
  | .memAlloc _ | .memDealloc _ | .tskCreate .. | .tskExit | .tskYield | .tskGettid | .tskLs ..
  | .mbxCreate _ | .mbxRecv .. | .mbxRecvNb .. | .mbxLs .. | .rtTskSet _ | .rtTskSusp => none

/-- The id of a task, or that of the UART in a send. -/
def Call.Names (c : Call) (id : Nat) : Prop :=
  match c with
  | .mbxSend .. | .mbxSendNb .. => id < 16 ∨ id = tidUart
  | _ => id < 16

/-- **The bounds of the ids**: the call indexes the two arrays below MAX_TASKS, and refuses any id
    it cannot mean, with the kernel unchanged. -/
def IdSafe (k : Kernel) (c : Call) : Prop :=
  k.svcHandler c ≠ .error .tcbIndex ∧ k.svcHandler c ≠ .error .mbxIndex ∧
    ∀ id, c.taskId = some id → ¬ c.Names id →
      ∃ k' r, k.svcHandler c = .ok (k', r) ∧ r.ret = some rtxErr ∧ Unchanged k k'

/-- The id does not come to an array before it is checked. -/
def Call.IdChecked : Call → Prop
  | .mbxSend id _ | .mbxSendNb id _ => id < 16 ∨ id = tidUart
  | .mbxGet id => id < 16
  | .rtTskGet id buffer => buffer = false ∨ id < 16
  | _ => True

/-- What decides the question, for one call. -/
theorem idSafe_iff {c : Call} (h : Ends (k.svcHandler c)
    (fun e => e ≠ .mbxIndex ∧ (e = .tcbIndex ↔ ¬ c.IdChecked) ∧
      (c.IdChecked → ∀ id, c.taskId = some id → c.Names id))
    fun r => c.IdChecked ∧ ∀ id, c.taskId = some id → ¬ c.Names id →
      r.2.ret = some rtxErr ∧ Unchanged k r.1) : IdSafe k c ↔ c.IdChecked := by
  unfold IdSafe
  cases hx : k.svcHandler c with
  | ok r =>
      rw [hx] at h
      refine ⟨fun _ => h.1, fun _ => ⟨fun e => (by cases e), fun e => (by cases e), ?_⟩⟩
      exact fun id hid hn => ⟨r.1, r.2, rfl, h.2 id hid hn⟩
  | error e =>
      rw [hx] at h
      obtain ⟨h1, h2, h3⟩ := h
      refine ⟨fun hs => not_not.mp fun hc => hs.1 (congrArg _ (h2.mpr hc)), fun hc => ⟨fun he => ?_,
        fun he => h1 (Except.error.inj he), fun id hid hn => absurd (h3 hc id hid) hn⟩⟩
      exact h2.mp (Except.error.inj he) hc

/-- **A call keeps within the bounds of the task ids if and only if it checks the id before it
    uses it**, in any state. -/
theorem ids_checked (k : Kernel) (c : Call) (hc : c.taskId.isSome = true) :
    IdSafe k c ↔ c.IdChecked := by
  cases c with
  | tskSetPrio id prio =>
      refine idSafe_iff ?_
      change Ends (k.kTskSetPrio id prio >>= _) _ _
      rw [ends_bind]
      refine (k.kTskSetPrio_ends id prio).mono (fun e he => ?_) fun r hr => ⟨trivial, ?_⟩
      · exact ⟨he.1.2, ⟨fun h => absurd h he.1.1, fun h => absurd trivial h⟩,
          fun _ _ h => Option.some.inj h ▸ he.2⟩
      · intro id' hid hn
        obtain rfl := Option.some.inj hid
        exact ⟨congrArg some (hr hn).1, (hr hn).2⟩
  | tskGet id buffer msp psp =>
      refine idSafe_iff ?_
      change Ends (k.kTskGet id buffer msp psp >>= _) _ _
      rw [ends_bind]
      refine (k.kTskGet_ends id buffer msp psp).mono (fun _ he => he.elim)
        fun r hr => ⟨trivial, fun id' hid hn => ?_⟩
      obtain rfl := Option.some.inj hid
      exact ⟨congrArg some (hr.2 hn), hr.1⟩
  | mbxGet id =>
      refine idSafe_iff ?_
      change Ends (k.kMbxGet id >>= _) _ _
      rw [ends_bind]
      refine (k.kMbxGet_ends id).mono (fun e he => ?_) fun r hr => ⟨hr.2, fun id' hid hn => ?_⟩
      · exact ⟨he.1 ▸ fun h => (by cases h), ⟨fun _ => he.2, fun _ => he.1⟩,
          fun h => absurd h he.2⟩
      · exact absurd (Option.some.inj hid ▸ hr.2) hn
  | rtTskGet id buffer =>
      refine idSafe_iff ?_
      change Ends (k.kRtTskGet id buffer >>= _) _ _
      rw [ends_bind]
      refine (k.kRtTskGet_ends id buffer).mono (fun e he => ?_)
        fun r hr => ⟨hr.2.1, fun id' hid hn => ?_⟩
      · exact ⟨he.1 ▸ fun h => (by cases h), ⟨fun _ => he.2, fun _ => he.1⟩,
          fun h => absurd h he.2⟩
      · obtain rfl := Option.some.inj hid
        exact ⟨congrArg some (hr.2.2 hn), hr.1⟩
  | mbxSend id buf =>
      refine idSafe_iff ?_
      change Ends (k.kSendMsg id buf >>= _) _ _
      rw [ends_bind]
      refine (k.kSendMsg_ends buf id).mono (fun e he => ⟨he.1, he.2, ?_⟩)
        fun r hr => ⟨hr, fun id' hid hn => ?_⟩
      · exact fun h id' hid => Option.some.inj hid ▸ h
      · exact absurd (Option.some.inj hid ▸ hr) hn
  | mbxSendNb id buf =>
      refine idSafe_iff ?_
      change Ends (k.kSendMsgNb id buf >>= _) _ _
      rw [ends_bind]
      refine (k.kSendMsgNb_ends buf id).mono (fun e he => ⟨he.1, he.2, ?_⟩)
        fun r hr => ⟨hr, fun id' hid hn => ?_⟩
      · exact fun h id' hid => Option.some.inj hid ▸ h
      · exact absurd (Option.some.inj hid ▸ hr) hn
  | memAlloc | memDealloc | tskCreate | tskExit | tskYield | tskGettid | tskLs | mbxCreate
  | mbxRecv | mbxRecvNb | mbxLs | rtTskSet | rtTskSusp => cases hc

theorem ids_checked_get : IdSafe (bootKernel threeTasks) (.mbxGet 14) ↔
    (Call.mbxGet 14).IdChecked :=
  ids_checked _ (.mbxGet 14) rfl

/-- A send to id 16 reads behind `g_tcbs`. -/
theorem send_outside : ¬ ∀ (k k' : Kernel) (es : List Event) (c : Call), Booted k →
    Allowed Kernel.step Kernel.Legal k es → run Kernel.step k es = some k' →
    c.taskId.isSome = true → IdSafe k' c := by
  intro h
  obtain ⟨h1, -⟩ := h _ _ [] (.mbxSend 16 fun i => if i = 0 then 6 else 0) booted_threeTasks
    trivial rfl rfl
  exact h1 rfl

end Rtx
