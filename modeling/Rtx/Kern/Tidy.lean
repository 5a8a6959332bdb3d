/-
  File:      Rtx/Kern/Tidy.lean
  Subject:   The places of the rings, and where the kernel writes.

  `Settled P`: `P` is about the mailboxes and the memory, and survives when a message is put in a
  ring or taken from one. Such a property survives every event but the calls that take or give
  back memory (`Settled.exec`), whatever the messages are.

  `Tidy k k'`: every mailbox that exists keeps its ring where it is, and no byte outside the rings
  has changed. A copy that leaves its ring is a fault, so this holds of every event but the two
  that allocate in IRAM2 (`exec_tidy`). IRAM1 changes in the memory calls of the tasks only
  (`exec_ram1`).
-/
import Rtx.Kern.Carried
import Rtx.Kern.Faults
import Rtx.Kern.Steady

namespace Rtx

open Lib

variable {k k' k₀ k₁ : Kernel} {m : MbxId} {t : Tid} {z : Nat}

/-! ## 1. Definitions -/

/-- The place of a ring, and whether the mailbox exists. -/
def Mailbox.place (b : Mailbox) : Bool × Nat × Nat × Nat :=
  (b.active, b.memoryBuffer.memoryStart, b.memoryBuffer.memoryEnd, b.memoryBuffer.capacity)

/-- The byte at `z` is in no ring. -/
def Kernel.OutsideRings (k : Kernel) (z : Nat) : Prop :=
  ∀ m, z < (k.ring m).memoryStart ∨ (k.ring m).memoryEnd ≤ z

/-- The rings stay where they are, and everything else in memory stays as it is. -/
structure Tidy (k k' : Kernel) : Prop where
  place : ∀ m, (k'.mailbox m).place = (k.mailbox m).place
  bytes : ∀ z, k.OutsideRings z → k'.bytes z = k.bytes z

section Place

variable {b b' : Mailbox} (h : b'.place = b.place)
include h

theorem Mailbox.active_of_place : b'.active = b.active := congrArg Prod.fst h

theorem Mailbox.memoryStart_of_place : b'.memoryBuffer.memoryStart = b.memoryBuffer.memoryStart :=
  congrArg (fun x => x.2.1) h

theorem Mailbox.memoryEnd_of_place : b'.memoryBuffer.memoryEnd = b.memoryBuffer.memoryEnd :=
  congrArg (fun x => x.2.2.1) h

theorem Mailbox.capacity_of_place : b'.memoryBuffer.capacity = b.memoryBuffer.capacity :=
  congrArg (fun x => x.2.2.2) h

end Place

theorem Tidy.refl (k : Kernel) : Tidy k k := ⟨fun _ => rfl, fun _ _ => rfl⟩

/-- The same rings, and the same bytes outside them. -/
theorem Tidy.outside (h : Tidy k k') (hz : k.OutsideRings z) : k'.OutsideRings z := fun m => by
  have h1 := Mailbox.memoryStart_of_place (h.place m)
  have h2 := Mailbox.memoryEnd_of_place (h.place m)
  unfold Kernel.ring
  rw [h1, h2]
  exact hz m

theorem Tidy.trans (h : Tidy k₀ k) (h' : Tidy k k') : Tidy k₀ k' :=
  ⟨fun m => (h'.place m).trans (h.place m),
    fun z hz => (h'.bytes z (h.outside hz)).trans (h.bytes z hz)⟩

/-! ## 2. The rings -/

/-- A copy to a ring writes in it. -/
theorem Mb.copyIn_outside (mb : Mb) (bytes : Nat → UInt8) (startAddr : Nat) (buf : Buf) (n : Nat)
    (hz : z < mb.memoryStart ∨ mb.memoryEnd ≤ z) :
    Post (mb.copyIn bytes startAddr buf n) fun r => r.1 z = bytes z := by
  have hin : ∀ {a n : Nat}, mb.inRing a n = true → ¬ (a ≤ z ∧ z < a + n) := by
    intro a n h hc
    unfold Mb.inRing at h
    simp only [Bool.or_eq_true, beq_iff_eq, Bool.and_eq_true, decide_eq_true_eq] at h
    omega
  unfold Mb.copyIn
  refine Ends.ite (fun _ => Ends.ite (fun h1 => ?_) fun _ => trivial) fun _ =>
    Ends.ite (fun h1 => ?_) fun _ => trivial
  · exact (memCpy_apply _ _ _ _ _ z).trans (if_neg (hin h1))
  · obtain ⟨h1, h2⟩ := Bool.and_eq_true_iff.mp h1
    exact (memCpy_apply _ _ _ _ _ z).trans ((if_neg (hin h2)).trans
      ((memCpy_apply _ _ _ _ _ z).trans (if_neg (hin h1))))

/-- A message pushed into a ring. -/
theorem Mb.pushBuffer_tidy (mb : Mb) (bytes : Nat → UInt8) (buf : Buf) :
    Post (mb.pushBuffer bytes buf) fun r => (∃ tail size,
        r.2.1 = { mb with tail, currentSize := size }) ∧
      ∀ z, z < mb.memoryStart ∨ mb.memoryEnd ≤ z → r.1 z = bytes z := by
  unfold Mb.pushBuffer
  refine Ends.ite (fun _ => ⟨⟨_, _, rfl⟩, fun _ _ => rfl⟩) fun _ => ?_
  refine Ends.bind Ends.returned fun r hr => ⟨⟨_, _, rfl⟩, fun z hz => ?_⟩
  exact (mb.copyIn_outside bytes mb.tail buf buf.length hz).of_ok hr

/-- A message popped from a ring. -/
theorem Mb.popBuffer_tidy (mb : Mb) (bytes : Nat → UInt8) (buf : Buf) (len : Nat) :
    Post (mb.popBuffer bytes buf len) fun r => ∃ head size,
      r.1 = { mb with head, currentSize := size } := by
  unfold Mb.popBuffer
  refine Ends.ite (fun _ => ⟨_, _, rfl⟩) fun _ => Ends.ite (fun _ => ⟨_, _, rfl⟩) fun _ => ?_
  refine Ends.bind Ends.trivial fun r _ => Ends.ite (fun _ => ⟨_, _, rfl⟩) fun _ => ?_
  generalize sub32 r.1.length msgHdrSize = n
  refine Ends.bind Ends.trivial fun r' _ => ?_
  generalize sub32 mb.currentSize r'.1.length = size
  exact ⟨_, _, rfl⟩

theorem Kernel.setRing_place {mb : Mb}
    (hmb : ∃ head tail size, mb = { k.ring m with head, tail, currentSize := size }) (m' : MbxId) :
    ((k.setRing m mb).mailbox m').place = (k.mailbox m').place := by
  obtain ⟨head, tail, size, rfl⟩ := hmb
  unfold Kernel.setRing
  dsimp only
  rw [Function.update_apply]
  split
  next e => exact e ▸ rfl
  · rfl

/-! ## 3. What survives the events -/

/-- What depends on the mailboxes and the memory, and survives the operations on the rings. -/
structure Settled (P : Kernel → Prop) : Prop where
  same : ∀ {k k' : Kernel}, P k → k'.mailbox = k.mailbox → SameMem k k' → P k'
  push : ∀ {k k' : Kernel} {m : MbxId} {buf : Buf}, P k → k.pushBuffer m buf = .ok k' → P k'
  pop : ∀ {k k' : Kernel} {m : MbxId} {buf buf' : Buf} {len : Nat} {r : Int}, P k →
    k.popBuffer m buf len = .ok (k', buf', r) → P k'

/-- The event is no call that takes or gives back memory. -/
def Event.keepsPools : Event → Bool
  | .call (.memAlloc _) | .call (.memDealloc _) | .call (.tskCreate ..) | .call (.mbxCreate _) =>
      false
  | _ => true

namespace Settled

variable {P : Kernel → Prop} (hP : Settled P) (h : P k)
include hP h

theorem tasksOnly (hk : TasksOnly k k') : P k' := hP.same h hk.mailbox hk.toSameMem

theorem setErrno (e : Errno) : P (k.setErrno e) := hP.same h rfl ⟨rfl, rfl, rfl⟩

theorem unchanged (hk : Unchanged k k') : P k' := by
  rcases hk with rfl | ⟨e, rfl⟩
  · exact h
  · exact hP.setErrno h e

theorem pushTail (t : Tid) (q : QId) : Post (k.pushTail t q) P :=
  (k.pushTail_tasksOnly t q).imp fun _ => hP.tasksOnly h

theorem pushBuffer (m : MbxId) (buf : Buf) : Post (k.pushBuffer m buf) P :=
  Ends.imp Ends.returned fun _ => hP.push h

theorem popBuffer (m : MbxId) (buf : Buf) (len : Nat) :
    Post (k.popBuffer m buf len) fun r => P r.1 :=
  Ends.imp Ends.returned fun _ => hP.pop h

theorem kTskRunNew : P k.kTskRunNew.1 := by
  have h1 := hP.tasksOnly h k.scheduler_tasksOnly
  unfold Kernel.kTskRunNew
  split
  · exact h
  dsimp only
  split
  · split
    · exact hP.same h1 rfl ⟨rfl, rfl, rfl⟩
    · exact hP.same h1 rfl ⟨rfl, rfl, rfl⟩
  · exact hP.same h1 rfl ⟨rfl, rfl, rfl⟩

theorem giveWay : Post k.giveWay P :=
  Ends.bind Ends.trivial fun _ _ => hP.kTskRunNew (hP.same h rfl ⟨rfl, rfl, rfl⟩)

theorem kTskYield : Post k.kTskYield fun r => P r.1 := by
  unfold Kernel.kTskYield
  refine Ends.ite (fun _ => h) fun _ => Ends.ite (fun _ => h) fun _ => ?_
  refine Ends.ite (fun _ => h) fun _ => Ends.ite (fun _ => ?_) fun _ => hP.kTskRunNew h
  refine Ends.bind Ends.trivial fun q _ => Ends.bind (hP.pushTail h _ q) fun k₁ h1 => ?_
  exact hP.kTskRunNew h1

theorem wake (t : Tid) (preempt : Bool) : Post (k.wake t preempt) P := by
  unfold Kernel.wake
  refine Ends.ite (fun _ => ?_) fun _ => h
  refine Ends.bind Ends.trivial fun q _ => Ends.bind (hP.pushTail h t q) fun k₁ h1 => ?_
  have h2 : P (k₁.setTaskState t .ready) := hP.same h1 rfl ⟨rfl, rfl, rfl⟩
  refine Ends.ite (fun _ => ?_) fun _ => h2
  exact Ends.bind Ends.trivial fun q' _ => hP.kTskRunNew (hP.same h2 rfl ⟨rfl, rfl, rfl⟩)

theorem deliver (m : MbxId) (buf : Buf) (preempt : Bool) : Post (k.deliver m buf preempt) P := by
  refine Ends.bind (hP.pushBuffer h m buf) fun k₁ h1 => ?_
  cases m with
  | uart => exact h1
  | task t => exact hP.wake h1 t preempt

theorem blockSend (m : MbxId) (buf : Buf) : Post (k.blockSend m buf) P := by
  have h1 : P (k.modifyTcb k.current fun d => { d with
      state := .blkSend
      messageHeader := some buf }) := hP.same h rfl ⟨rfl, rfl, rfl⟩
  exact Ends.bind (hP.pushTail h1 _ _) fun k₁ h2 => hP.kTskRunNew h2

theorem kSendMsg (receiverTid : Nat) (buf : Buf) :
    Post (k.kSendMsg receiverTid buf) fun r => P r.1 := by
  refine Ends.bind Ends.trivial fun r _ => ?_
  cases r with
  | error e => exact hP.setErrno h e
  | ok m =>
      refine Ends.ite (fun _ => ?_) fun _ => ?_
      · exact Ends.bind (hP.deliver h m buf true) fun _ h1 => h1
      · exact Ends.bind (hP.blockSend h m buf) fun _ h1 => h1

theorem kSendMsgNb (receiverTid : Nat) (buf : Buf) :
    Post (k.kSendMsgNb receiverTid buf) fun r => P r.1 := by
  refine Ends.bind Ends.trivial fun r _ => ?_
  cases r with
  | error e => exact hP.setErrno h e
  | ok m =>
      refine Ends.ite (fun _ => ?_) fun _ => hP.setErrno h _
      exact Ends.bind (hP.deliver h m buf _) fun _ h1 => h1

omit h in
theorem releaseLoop (m : MbxId) (n : Nat) (h : P k) : Post (Kernel.releaseLoop m n k) P := by
  induction n generalizing k with
  | zero => exact h
  | succ n ih =>
      unfold Kernel.releaseLoop
      cases (k.queue (.waiting m)).head with
      | none => exact h
      | some t =>
          dsimp only
          cases (k.tcb t).messageHeader with
          | none => exact trivial
          | some buf =>
              refine Ends.ite (fun _ => h) fun _ => ?_
              have h1 : P (k.popHead (.waiting m)) := hP.same h rfl ⟨rfl, rfl, rfl⟩
              refine Ends.bind (hP.pushBuffer h1 m buf) fun k₁ h2 => ?_
              refine Ends.bind Ends.trivial fun q _ => ?_
              exact Ends.bind (hP.pushTail h2 t q) fun k₂ h3 => ih h3

theorem recvRest (m : MbxId) (buf : Buf) (len : Nat) :
    Post (k.recvRest m buf len) fun r => P r.1 := by
  refine Ends.bind (hP.popBuffer h m buf len) fun r h1 => ?_
  refine Ends.bind (hP.releaseLoop m _ h1) fun k₁ h2 => ?_
  exact Ends.bind (hP.giveWay h2) fun _ h3 => h3

theorem resumeRecv (p : Pending) : Post (k.resumeRecv p) fun r => P r.1 := by
  have h1 : P { k with pend := Function.update k.pend k.current none } :=
    hP.same h rfl ⟨rfl, rfl, rfl⟩
  exact Ends.bind (hP.recvRest h1 p.mbx p.buf p.len) fun _ h2 => h2

theorem kRecvMsg (buf : Option Buf) (len : Nat) : Post (k.kRecvMsg buf len) fun r => P r.1 := by
  unfold Kernel.kRecvMsg
  cases buf with
  | none => exact hP.setErrno h _
  | some buf =>
      refine Ends.bind Ends.trivial fun m _ => Ends.ite (fun _ => hP.setErrno h _) fun _ => ?_
      refine Ends.bind (hP.popBuffer h m buf len) fun r h1 => ?_
      obtain ⟨k₁, buf', check⟩ := r
      refine Ends.ite (fun _ => hP.setErrno h1 _) fun _ => Ends.ite (fun _ => ?_) fun _ => ?_
      · have h2 : P (k₁.setTaskState k₁.current .blkRecv).kTskRunNew.1 :=
          hP.kTskRunNew (hP.same h1 rfl ⟨rfl, rfl, rfl⟩)
        refine Ends.ite (fun _ => hP.same h2 rfl ⟨rfl, rfl, rfl⟩) fun _ => ?_
        exact Ends.bind (hP.recvRest h2 m buf' len) fun _ h3 => h3
      · refine Ends.bind (hP.releaseLoop m _ h1) fun k₂ h2 => ?_
        exact Ends.bind (hP.giveWay h2) fun _ h3 => h3

theorem kRecvMsgNb (buf : Option Buf) (len : Nat) :
    Post (k.kRecvMsgNb buf len) fun r => P r.1 := by
  unfold Kernel.kRecvMsgNb
  cases buf with
  | none => exact hP.setErrno h _
  | some buf =>
      refine Ends.bind Ends.trivial fun m _ => Ends.ite (fun _ => hP.setErrno h _) fun _ => ?_
      refine Ends.ite (fun _ => hP.setErrno h _) fun _ => ?_
      refine Ends.bind (hP.popBuffer h m buf len) fun r h1 => ?_
      refine Ends.ite (fun _ => hP.setErrno h1 _) fun _ => ?_
      refine Ends.bind (hP.releaseLoop m _ h1) fun k₂ h2 => Ends.ite (fun _ => h2) fun _ => ?_
      exact Ends.bind (hP.giveWay h2) fun _ h3 => h3

/-- **Every event but the calls for memory** leaves what is settled. -/
theorem exec {e : Event} (he : e.keepsPools = true) : Post (k.exec e) fun r => P r.1 := by
  cases e with
  | resume =>
      unfold Kernel.exec
      cases k.pend k.current with
      | none => exact h
      | some p => exact Ends.bind (hP.resumeRecv h p) fun _ hr => hr
  | timer tc pc =>
      exact Ends.bind (k.timer0IrqHandler_tasksOnly tc pc) fun _ hr => hP.tasksOnly h hr
  | overwrite t buf =>
      change P (if _ then _ else k)
      split
      · exact hP.same h rfl ⟨rfl, rfl, rfl⟩
      · exact h
  | call c =>
      cases c with
      | memAlloc | memDealloc | tskCreate | mbxCreate => cases he
      | tskExit => exact hP.tasksOnly h k.runScheduled_tasksOnly
      | tskYield => exact Ends.bind (hP.kTskYield h) fun _ hr => hr
      | tskSetPrio taskId prio =>
          exact Ends.bind (k.kTskSetPrio_tasksOnly taskId prio) fun _ hr => hP.tasksOnly h hr
      | tskGet tid buffer msp psp =>
          exact Ends.bind (k.kTskGet_ends tid buffer msp psp).post fun _ hr => hP.unchanged h hr.1
      | tskGettid => exact h
      | tskLs buf count => exact hP.unchanged h (k.kTskLs_unchanged buf count)
      | mbxSend receiverTid buf => exact Ends.bind (hP.kSendMsg h receiverTid buf) fun _ hr => hr
      | mbxSendNb receiverTid buf =>
          exact Ends.bind (hP.kSendMsgNb h receiverTid buf) fun _ hr => hr
      | mbxRecv buf len => exact Ends.bind (hP.kRecvMsg h buf len) fun _ hr => hr
      | mbxRecvNb buf len => exact Ends.bind (hP.kRecvMsgNb h buf len) fun _ hr => hr
      | mbxLs buf count => exact hP.unchanged h (k.kMbxLs_unchanged buf count)
      | mbxGet tid => exact Ends.bind (k.kMbxGet_ends tid).post fun _ hr => hP.unchanged h hr.1
      | rtTskSet tv => exact Ends.bind (k.kRtTskSet_tasksOnly tv) fun _ hr => hP.tasksOnly h hr
      | rtTskSusp => exact Ends.bind k.kRtTskSusp_tasksOnly fun _ hr => hP.tasksOnly h hr
      | rtTskGet tid buffer =>
          exact Ends.bind (k.kRtTskGet_ends tid buffer).post fun _ hr => hP.unchanged h hr.1

end Settled

/-! ## 4. The rings stay in their places -/

section Operations

variable (h : Tidy k₀ k)
include h

/-- What is neither a mailbox nor a byte of memory can change. -/
theorem Tidy.frame (hm : k'.mailbox = k.mailbox) (hb : k'.bytes = k.bytes) : Tidy k₀ k' :=
  h.trans ⟨fun m => by rw [hm], fun z _ => by rw [hb]⟩

theorem Tidy.tasksOnly (hk : TasksOnly k k') : Tidy k₀ k' := h.frame hk.mailbox hk.bytes

theorem Tidy.setErrno (e : Errno) : Tidy k₀ (k.setErrno e) := h.frame rfl rfl

end Operations

theorem Tidy.settled (k₀ : Kernel) : Settled (Tidy k₀) where
  same h hm hk := h.frame hm hk.bytes
  push {k k' m buf} h hk := by
    obtain ⟨bytes, mb, r, h1, rfl⟩ := Kernel.pushBuffer_eq_ok hk
    obtain ⟨⟨tail, size, hmb⟩, hout⟩ := ((k.ring m).pushBuffer_tidy k.bytes buf).of_ok h1
    exact h.trans ⟨Kernel.setRing_place ⟨_, tail, size, hmb⟩, fun z hz => hout z (hz m)⟩
  pop {k k' m buf buf' len r} h hk := by
    obtain ⟨mb, h1, rfl⟩ := Kernel.popBuffer_eq_ok hk
    obtain ⟨head, size, hmb⟩ := ((k.ring m).popBuffer_tidy k.bytes buf len).of_ok h1
    exact h.trans ⟨Kernel.setRing_place ⟨head, _, size, hmb⟩, fun _ _ => rfl⟩

/-- The event allocates no memory of IRAM2. -/
def Event.keepsHomes : Event → Bool
  | .call (.tskCreate ..) | .call (.mbxCreate _) => false
  | _ => true

/-- **Every other event** leaves the rings where they are, and all that is not in a ring. -/
theorem exec_tidy (k : Kernel) {e : Event} (he : e.keepsHomes = true) :
    Post (k.exec e) fun r => Tidy k r.1 := by
  have h := Tidy.refl k
  cases hp : e.keepsPools with
  | true => exact (Tidy.settled k).exec h hp
  | false =>
      cases e with
      | resume | timer | overwrite => cases hp
      | call c =>
          cases c with
          | memAlloc size =>
              exact Ends.bind (k.mpoolAlloc_ends _ _).post fun _ ⟨_, hr⟩ =>
                h.frame (hr ▸ rfl) (hr ▸ rfl)
          | memDealloc ptr =>
              exact Ends.bind (k.mpoolDealloc_ends _ _).post fun _ ⟨_, hr⟩ =>
                h.frame (hr ▸ rfl) (hr ▸ rfl)
          | tskCreate | mbxCreate => cases he
          | _ => cases hp

/-! ## 5. IRAM1 -/

/-- Nothing of the kernel's own is in IRAM1 but the ring of the UART. -/
theorem ram1_settled (p : Pool) : Settled (·.ram1 = p) where
  same h _ hk := hk.ram1.trans h
  push h hk := by
    obtain ⟨bytes, mb, r, -, rfl⟩ := Kernel.pushBuffer_eq_ok hk
    exact h
  pop h hk := by
    obtain ⟨mb, -, rfl⟩ := Kernel.popBuffer_eq_ok hk
    exact h

theorem mpoolAlloc_ram1 (k : Kernel) (size : Nat) :
    Post (k.mpoolAlloc mpidIram2 size) fun r => r.1.ram1 = k.ram1 := by
  refine Ends.imp Ends.returned fun r hr => ?_
  obtain ⟨k', ptr⟩ := r
  obtain ⟨m, hm, rfl⟩ := mpoolAlloc_eq_ok hr
  rw [show kMpoolAlloc k.mem mpidIram2 size = _ from Pools.kMpoolAlloc_eq k.mem .iram2 size] at hm
  cases hal : (k.mem.pool .iram2).alloc PoolId.iram2.cfg size with
  | none =>
      rw [hal] at hm
      cases hm
  | some x =>
      rw [hal] at hm
      cases x with
      | error e =>
          obtain ⟨rfl, -⟩ := Prod.mk.inj (Option.some.inj hm)
          rfl
      | ok x =>
          obtain ⟨rfl, -⟩ := Prod.mk.inj (Option.some.inj hm)
          rfl

/-- The stack of a new task is in IRAM2. -/
theorem Kernel.kTskCreateNew_ram1 (k : Kernel) (info : TaskInit) (t : Tid) :
    Post (k.kTskCreateNew info t) fun r => r.1.ram1 = k.ram1 ∧ r.1.mailbox = k.mailbox := by
  refine (kTskCreateNew_spec k info t).imp fun r hr => ?_
  obtain ⟨k₁, x⟩ := r
  obtain ⟨power, k₂, ptr, -, hal, hr⟩ := hr
  have h2 := (mpoolAlloc_ram1 k _).of_ok hal
  obtain ⟨m, -, rfl⟩ := mpoolAlloc_eq_ok hal
  obtain ⟨-, -, rfl⟩ | ⟨a, -, -, rfl⟩ := hr
  · exact ⟨h2, rfl⟩
  · exact ⟨h2, rfl⟩

theorem Kernel.kTskCreate_ram1 (k : Kernel) (taskEntry prio stackSize : Nat) :
    Post (k.kTskCreate taskEntry prio stackSize) fun r => r.1.ram1 = k.ram1 := by
  unfold Kernel.kTskCreate
  refine Ends.ite (fun _ => rfl) fun _ => Ends.ite (fun _ => rfl) fun _ => ?_
  refine Ends.bind (k.kTskCreateNew_ram1 _ _) fun r hr => ?_
  refine Ends.ite (fun _ => hr.1) fun _ => ?_
  exact Ends.bind (r.1.startNew_tasksOnly _ _) fun k₃ h3 => h3.ram1.trans hr.1

theorem Kernel.kMbxCreate_ram1 (k : Kernel) (size : Nat) :
    Post (k.kMbxCreate size) fun r => r.1.ram1 = k.ram1 := by
  refine Ends.bind Ends.trivial fun m _ => Ends.ite (fun _ => rfl) fun _ => ?_
  refine Ends.ite (fun _ => rfl) fun _ => ?_
  refine Ends.bind (mpoolAlloc_ram1 k size) fun r hr => ?_
  obtain ⟨k₁, ptr⟩ := r
  cases ptr with
  | none => exact hr
  | some a => exact hr

/-- **Every event but the memory calls of the tasks** leaves IRAM1. -/
theorem exec_ram1 (k : Kernel) {e : Event} (ha : ∀ size, e ≠ .call (.memAlloc size))
    (hd : ∀ ptr, e ≠ .call (.memDealloc ptr)) : Post (k.exec e) fun r => r.1.ram1 = k.ram1 := by
  have hP := ram1_settled k.ram1
  cases hp : e.keepsPools with
  | true => exact hP.exec rfl hp
  | false =>
      cases e with
      | resume | timer | overwrite => cases hp
      | call c =>
          cases c with
          | memAlloc size => exact absurd rfl (ha size)
          | memDealloc ptr => exact absurd rfl (hd ptr)
          | tskCreate taskEntry prio stackSize =>
              exact Ends.bind (k.kTskCreate_ram1 taskEntry prio stackSize) fun _ hr => hr
          | mbxCreate size => exact Ends.bind (k.kMbxCreate_ram1 size) fun _ hr => hr
          | _ => cases hp

end Rtx
