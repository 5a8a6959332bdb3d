/-
  File:      Rtx/Kern/Atomic.lean
  Subject:   A system call that fails changes nothing.

  `Atomic k k'`: all that differs is `errno` and the stack base of TCBs no task lives in. Every
  call makes its checks before its first change; the one exception is `k_tsk_create`, which clears
  the stack base of the slot it has chosen when there is no memory for a stack.
-/
import Rtx.Kern.RestStep
import Rtx.Kern.Boot

namespace Rtx

open Lib

/-! ## 1. What a failed call leaves -/

/-- The kernel is as it was: but for `errno`, and for `psp_base` of the dormant TCBs. -/
structure Atomic (k k' : Kernel) : Prop where
  ram1 : k'.ram1 = k.ram1
  ram2 : k'.ram2 = k.ram2
  queue : k'.queue = k.queue
  mailbox : k'.mailbox = k.mailbox
  bytes : k'.bytes = k.bytes
  current : k'.current = k.current
  timer : k'.timerCount = k.timerCount ∧ k'.uartMailboxCollect = k.uartMailboxCollect
  pend : k'.pend = k.pend
  tcb : ∀ t, k'.tcb t = k.tcb t ∨
    (k.tcb t).state = .dormant ∧ ∃ pspBase, k'.tcb t = { k.tcb t with pspBase }

/-- The call returns RTX_ERR, or NULL where it returns a pointer. -/
def Reply.Failed : Reply → Prop
  | .block ptr => ptr = .none
  | r => r.ret = some rtxErr

instance (r : Reply) : Decidable r.Failed := by
  cases r <;> unfold Reply.Failed <;> infer_instance

/-- A call that returns RTX_OK did not fail. -/
theorem ok_ne_err {p : Prop} (h : rtxOk = rtxErr) : p := absurd h (by decide)

variable {k k' : Kernel}

theorem Atomic.refl (k : Kernel) : Atomic k k :=
  ⟨rfl, rfl, rfl, rfl, rfl, rfl, ⟨rfl, rfl⟩, rfl, fun _ => Or.inl rfl⟩

theorem Atomic.setErrno (h : Atomic k k') (e : Errno) : Atomic k (k'.setErrno e) :=
  ⟨h.ram1, h.ram2, h.queue, h.mailbox, h.bytes, h.current, h.timer, h.pend, h.tcb⟩

theorem Atomic.refused (k : Kernel) (e : Errno) : Atomic k (k.setErrno e) := (refl k).setErrno e

theorem Atomic.of_unchanged (h : Unchanged k k') : Atomic k k' := by
  rcases h with rfl | ⟨e, rfl⟩
  · exact refl _
  · exact refused _ _

/-! ## 2. The pools -/

section Pools

variable {m m' : Mem} {mpid : Int}

/-- An id is that of a pool, or it is neither of the two constants. -/
theorem mpid_cases (mpid : Int) :
    (∃ i : PoolId, mpid = i.mpid) ∨ mpid ≠ mpidIram1 ∧ mpid ≠ mpidIram2 := by
  by_cases h1 : mpid = mpidIram1
  · exact Or.inl ⟨.iram1, h1⟩
  · by_cases h2 : mpid = mpidIram2
    · exact Or.inl ⟨.iram2, h2⟩
    · exact Or.inr ⟨h1, h2⟩

/-- An allocation that returns NULL leaves both pools. -/
theorem kMpoolAlloc_null {size : Nat} (h : kMpoolAlloc m mpid size = some (m', none)) :
    ∃ e, m' = m.fail e := by
  rcases mpid_cases mpid with ⟨i, rfl⟩ | ⟨h1, h2⟩
  · rw [Pools.kMpoolAlloc_eq] at h
    cases hx : (m.pool i).alloc i.cfg size with
    | none => simp [hx] at h
    | some x =>
        cases x with
        | ok x => simp [hx] at h
        | error e => exact ⟨e, by simpa [hx] using h.symm⟩
  · unfold kMpoolAlloc at h
    rw [if_neg h1, if_neg h2] at h
    split at h
    · exact ⟨none, by simpa [Mem.fail] using h.symm⟩
    · exact ⟨_, by simpa using h.symm⟩

/-- A deallocation that returns RTX_ERR leaves both pools. -/
theorem kMpoolDealloc_err {ptr : Option Nat} (h : kMpoolDealloc m mpid ptr = some (m', rtxErr)) :
    ∃ e, m' = m.fail e := by
  have hne : rtxOk ≠ rtxErr := by decide
  cases ptr with
  | none => exact ⟨none, by simpa [kMpoolDealloc, Mem.fail] using h.symm⟩
  | some ptr =>
      rcases mpid_cases mpid with ⟨i, rfl⟩ | ⟨h1, h2⟩
      · rw [Pools.kMpoolDealloc_eq] at h
        cases hx : (m.pool i).dealloc i.cfg (some ptr) with
        | none => simp [hx] at h
        | some x =>
            cases x with
            | ok x => simp [hx, hne] at h
            | error e => exact ⟨e, by simpa [hx] using h.symm⟩
      · unfold kMpoolDealloc at h
        rw [if_neg (by simp), if_neg h1, if_neg h2] at h
        exact ⟨_, by simpa using h.symm⟩

end Pools

namespace Kernel

variable (k : Kernel)

theorem failed_mem (e : Option Errno) : Atomic k
    { k with ram1 := (k.mem.fail e).ram1, ram2 := (k.mem.fail e).ram2, errno := (k.mem.fail e).errno } :=
  ⟨rfl, rfl, rfl, rfl, rfl, rfl, ⟨rfl, rfl⟩, rfl, fun _ => Or.inl rfl⟩

theorem mpoolAlloc_atomic (mpid : Int) (size : Nat) :
    Post (k.mpoolAlloc mpid size) fun r => r.2 = none → Atomic k r.1 := by
  unfold mpoolAlloc
  cases hm : kMpoolAlloc k.mem mpid size with
  | none => trivial
  | some r =>
      obtain ⟨m, ptr⟩ := r
      intro (hptr : ptr = none)
      subst hptr
      obtain ⟨e, rfl⟩ := kMpoolAlloc_null hm
      exact k.failed_mem e

theorem mpoolDealloc_atomic (mpid : Int) (ptr : Option Nat) :
    Post (k.mpoolDealloc mpid ptr) fun r => r.2 = rtxErr → Atomic k r.1 := by
  unfold mpoolDealloc
  cases hm : kMpoolDealloc k.mem mpid ptr with
  | none => trivial
  | some r =>
      obtain ⟨m, x⟩ := r
      intro (hx : x = rtxErr)
      subst hx
      obtain ⟨e, rfl⟩ := kMpoolDealloc_err hm
      exact k.failed_mem e

/-! ## 3. The calls of tasks -/

/-- `k_tsk_create` fails before the slot it has chosen holds a task. -/
theorem kTskCreate_atomic (taskEntry prio stackSize : Nat) :
    Post (k.kTskCreate taskEntry prio stackSize) fun r => r.2.1 = rtxErr → Atomic k r.1 := by
  unfold kTskCreate
  refine Ends.ite (fun _ _ => .refused k _) fun hslot => ?_
  refine Ends.ite (fun _ _ => .refused k _) fun _ => ?_
  have hs := dormantSlot_dormant k hslot
  generalize k.dormantSlot = t at hs ⊢
  refine Ends.bind (kTskCreateNew_spec k _ t) fun r hr => ?_
  obtain ⟨k', r⟩ := r
  obtain ⟨power, k₁, ptr, -, hal, hr⟩ := hr
  have hat := (k.mpoolAlloc_atomic mpidIram2 (power2 power)).of_ok hal
  obtain ⟨rfl, rfl, rfl⟩ | ⟨a, -, rfl, -⟩ := hr
  · -- no memory: the stack base of the dormant slot is cleared
    have h := hat rfl
    obtain ⟨m, -, rfl⟩ := mpoolAlloc_eq_ok hal
    refine Ends.ite (fun _ _ => ⟨h.ram1, h.ram2, rfl, rfl, rfl, rfl, ⟨rfl, rfl⟩, rfl, fun u => ?_⟩)
      fun he => absurd rfl he
    by_cases hu : u = t
    · subst hu
      exact Or.inr ⟨hs, none, Function.update_self _ _ _⟩
    · exact Or.inl (Function.update_of_ne hu _ _)
  · refine Ends.ite (ok_ne_err) fun _ => ?_
    exact Ends.bind Ends.trivial fun _ _ he => ok_ne_err he

theorem kTskYield_atomic : Post k.kTskYield fun r => r.2 = rtxErr → Atomic k r.1 := by
  unfold kTskYield
  refine Ends.ite (fun _ _ => .refl k) fun _ => ?_
  refine Ends.ite (fun _ he => ok_ne_err he) fun _ => ?_
  refine Ends.ite (fun _ _ => .refl k) fun _ => ?_
  refine Ends.ite (fun _ => ?_) fun _ he => ok_ne_err he
  refine Ends.bind Ends.trivial fun _ _ => Ends.bind Ends.trivial fun _ _ he => ?_
  exact ok_ne_err he

theorem kTskSetPrio_atomic (taskId prio : Nat) :
    Post (k.kTskSetPrio taskId prio) fun r => r.2 = rtxErr → Atomic k r.1 := by
  unfold kTskSetPrio
  refine Ends.ite (fun _ _ => .refused k _) fun _ => ?_
  refine Ends.bind Ends.trivial fun _ _ => ?_
  refine Ends.ite (fun _ _ => .refused k _) fun _ => ?_
  refine Ends.ite (fun _ _ => .refused k _) fun _ => ?_
  refine Ends.ite (fun _ _ => .refused k _) fun _ => ?_
  refine Ends.ite (fun _ _ => .refused k _) fun _ => ?_
  exact Ends.bind Ends.trivial fun _ _ he => ok_ne_err he

theorem kRtTskSet_atomic (tv : Timeval) :
    Post (k.kRtTskSet tv) fun r => r.2 = rtxErr → Atomic k r.1 := by
  unfold kRtTskSet
  refine Ends.ite (fun _ _ => .refused k _) fun _ => ?_
  refine Ends.ite (fun _ _ => .refused k _) fun _ => ?_
  refine Ends.bind Ends.trivial fun _ _ => Ends.bind Ends.trivial fun _ _ he => ?_
  exact ok_ne_err he

theorem kRtTskSusp_atomic : Post k.kRtTskSusp fun r => r.2 = rtxErr → Atomic k r.1 := by
  unfold kRtTskSusp
  refine Ends.ite (fun _ _ => .refused k _) fun _ => ?_
  exact Ends.bind Ends.trivial fun _ _ he => ok_ne_err he

/-! ## 4. The calls on mailboxes -/

/-- `k_mbx_create` returns the task's id if it succeeds. -/
theorem kMbxCreate_atomic (size : Nat) :
    Post (k.kMbxCreate size) fun r => r.2 = rtxErr → Atomic k r.1 := by
  unfold kMbxCreate
  refine Ends.bind Ends.trivial fun m _ => ?_
  refine Ends.ite (fun _ _ => .refused k _) fun _ => ?_
  refine Ends.ite (fun _ _ => .refused k _) fun _ => ?_
  refine Ends.bind (k.mpoolAlloc_atomic mpidIram2 size) fun r hr => ?_
  obtain ⟨k₁, memAlloc⟩ := r
  cases memAlloc with
  | none => exact fun _ => (hr rfl).setErrno _
  | some a =>
      intro (he : (k.cur.tid : Int) = -1)
      omega

theorem kSendMsg_atomic (receiverTid : Nat) (buf : Buf) :
    Post (k.kSendMsg receiverTid buf) fun r => r.2 = rtxErr → Atomic k r.1 := by
  unfold kSendMsg
  refine Ends.bind Ends.trivial fun x _ => ?_
  cases x with
  | error e => exact fun _ => .refused k e
  | ok m =>
      refine Ends.ite (fun _ => ?_) fun _ => ?_
      · exact Ends.bind Ends.trivial fun _ _ => ok_ne_err
      · exact Ends.bind Ends.trivial fun _ _ => ok_ne_err

theorem kSendMsgNb_atomic (receiverTid : Nat) (buf : Buf) :
    Post (k.kSendMsgNb receiverTid buf) fun r => r.2 = rtxErr → Atomic k r.1 := by
  unfold kSendMsgNb
  refine Ends.bind Ends.trivial fun x _ => ?_
  cases x with
  | error e => exact fun _ => .refused k e
  | ok m =>
      refine Ends.ite (fun _ => ?_) fun _ _ => .refused k _
      exact Ends.bind Ends.trivial fun _ _ => ok_ne_err

/-- `pop_buffer` that refuses a message has copied its header, but the ring is as it was. -/
theorem popBuffer_refused (m : MbxId) (buf : Buf) (len : Nat) :
    Post (k.popBuffer m buf len) fun r => r.2.2 = -1 → r.1 = k := by
  have hring : Post ((k.ring m).popBuffer k.bytes buf len) fun r => r.2.2 = -1 → r.1 = k.ring m := by
    unfold Mb.popBuffer
    refine Ends.ite (fun _ _ => rfl) fun _ => ?_
    refine Ends.ite (fun _ _ => rfl) fun _ => ?_
    refine Ends.bind Ends.trivial fun _ _ => ?_
    refine Ends.ite (fun _ _ => rfl) fun _ => ?_
    generalize sub32 _ _ = n
    refine Ends.bind Ends.trivial fun _ _ => ?_
    intro (he : (1 : Int) = -1)
    omega
  refine Ends.bind hring fun r hr => fun he => ?_
  have hmb : { k.mailbox m with memoryBuffer := k.ring m } = k.mailbox m := rfl
  rw [setRing, hr he, hmb, Function.update_eq_self]

theorem kRecvMsg_atomic (buf : Option Buf) (len : Nat) :
    Post (k.kRecvMsg buf len) fun r => (∃ b, r.2 = some (rtxErr, b)) → Atomic k r.1 := by
  unfold kRecvMsg
  cases buf with
  | none => exact fun _ => .refused k _
  | some buf =>
      refine Ends.bind Ends.trivial fun m _ => ?_
      refine Ends.ite (fun _ _ => .refused k _) fun _ => ?_
      refine Ends.bind (k.popBuffer_refused m buf len) fun r hr => ?_
      obtain ⟨k₁, buf₁, check⟩ := r
      refine Ends.ite (fun hc _ => ?_) fun _ => ?_
      · obtain rfl : k₁ = k := hr hc
        exact .refused _ _
      refine Ends.ite (fun _ => ?_) fun _ => ?_
      · refine Ends.ite (fun _ => ?_) fun _ => ?_
        · intro ⟨b, he⟩
          cases he
        · refine Ends.bind Ends.trivial fun _ _ => ?_
          exact fun ⟨b, he⟩ => ok_ne_err (congrArg Prod.fst (Option.some.inj he))
      · refine Ends.bind Ends.trivial fun _ _ => Ends.bind Ends.trivial fun _ _ => ?_
        exact fun ⟨b, he⟩ => ok_ne_err (congrArg Prod.fst (Option.some.inj he))

theorem kRecvMsgNb_atomic (buf : Option Buf) (len : Nat) :
    Post (k.kRecvMsgNb buf len) fun r => (∃ b, r.2 = some (rtxErr, b)) → Atomic k r.1 := by
  unfold kRecvMsgNb
  cases buf with
  | none => exact fun _ => .refused k _
  | some buf =>
      refine Ends.bind Ends.trivial fun m _ => ?_
      refine Ends.ite (fun _ _ => .refused k _) fun _ => ?_
      refine Ends.ite (fun _ _ => .refused k _) fun _ => ?_
      refine Ends.bind (k.popBuffer_refused m buf len) fun r hr => ?_
      obtain ⟨k₁, buf₁, check⟩ := r
      refine Ends.ite (fun hc _ => ?_) fun _ => ?_
      · obtain rfl : k₁ = k := hr hc
        exact .refused _ _
      refine Ends.bind Ends.trivial fun _ _ => ?_
      refine Ends.ite (fun _ => ?_) fun _ => ?_
      · exact fun ⟨b, he⟩ => ok_ne_err (congrArg Prod.fst (Option.some.inj he))
      · refine Ends.bind Ends.trivial fun _ _ => ?_
        exact fun ⟨b, he⟩ => ok_ne_err (congrArg Prod.fst (Option.some.inj he))

/-- **One call.** -/
theorem svcHandler_atomic (c : Call) : Post (k.svcHandler c) fun r => r.2.Failed → Atomic k r.1 := by
  have hint : ∀ {r : Int}, some r = some rtxErr → r = rtxErr := fun e => Option.some.inj e
  cases c with
  | memAlloc size => exact Ends.bind (k.mpoolAlloc_atomic _ size) fun _ hr => hr
  | memDealloc ptr => exact Ends.bind (k.mpoolDealloc_atomic _ ptr) fun _ hr he => hr (hint he)
  | tskCreate taskEntry prio stackSize =>
      exact Ends.bind (k.kTskCreate_atomic taskEntry prio stackSize) fun _ hr he => hr (hint he)
  | tskExit => exact fun he => by cases he
  | tskYield => exact Ends.bind k.kTskYield_atomic fun _ hr he => hr (hint he)
  | tskSetPrio taskId prio =>
      exact Ends.bind (k.kTskSetPrio_atomic taskId prio) fun _ hr he => hr (hint he)
  | tskGet tid buffer msp psp =>
      exact Ends.bind (k.kTskGet_unchanged tid buffer msp psp) fun _ hr _ => .of_unchanged hr
  | tskGettid => exact fun _ => .refl k
  | tskLs buf count => exact fun _ => .of_unchanged (k.kTskLs_unchanged buf count)
  | mbxCreate size => exact Ends.bind (k.kMbxCreate_atomic size) fun _ hr he => hr (hint he)
  | mbxSend receiverTid buf =>
      exact Ends.bind (k.kSendMsg_atomic receiverTid buf) fun _ hr he => hr (hint he)
  | mbxSendNb receiverTid buf =>
      exact Ends.bind (k.kSendMsgNb_atomic receiverTid buf) fun _ hr he => hr (hint he)
  | mbxRecv buf len =>
      refine Ends.bind (k.kRecvMsg_atomic buf len) fun r hr he => ?_
      obtain ⟨k₁, x⟩ := r
      cases x with
      | none => cases he
      | some x => exact hr ⟨x.2, congrArg (fun r => some (r, x.2)) (hint he)⟩
  | mbxRecvNb buf len =>
      refine Ends.bind (k.kRecvMsgNb_atomic buf len) fun r hr he => ?_
      obtain ⟨k₁, x⟩ := r
      cases x with
      | none => cases he
      | some x => exact hr ⟨x.2, congrArg (fun r => some (r, x.2)) (hint he)⟩
  | mbxLs buf count => exact fun _ => .of_unchanged (k.kMbxLs_unchanged buf count)
  | mbxGet tid => exact Ends.bind (k.kMbxGet_unchanged tid) fun _ hr _ => .of_unchanged hr
  | rtTskSet tv => exact Ends.bind (k.kRtTskSet_atomic tv) fun _ hr he => hr (hint he)
  | rtTskSusp => exact Ends.bind k.kRtTskSusp_atomic fun _ hr he => hr (hint he)
  | rtTskGet tid buffer =>
      exact Ends.bind (k.kRtTskGet_unchanged tid buffer) fun _ hr _ => .of_unchanged hr

end Kernel

/-! ## 5. All calls -/

/-- **A system call that fails changes nothing**, in any state: the calls of `SVC_Handler`, and
    those on the pools with any pool id. -/
theorem failed_atomic (k : Kernel) :
    (∀ c k' r, k.svcHandler c = .ok (k', r) → r.Failed → Atomic k k') ∧
      (∀ mpid size k', k.mpoolAlloc mpid size = .ok (k', none) → Atomic k k') ∧
        ∀ mpid ptr k', k.mpoolDealloc mpid ptr = .ok (k', rtxErr) → Atomic k k' :=
  ⟨fun c _ _ hx hr => (k.svcHandler_atomic c).of_ok hx hr,
    fun mpid size _ hx => (k.mpoolAlloc_atomic mpid size).of_ok hx rfl,
    fun mpid ptr _ hx => (k.mpoolDealloc_atomic mpid ptr).of_ok hx rfl⟩

/-- A task for whose stack there is no memory, a request to a pool that does not exist and a
    block that was never handed out. -/
theorem failed_atomic_no_memory : ∃ k₁ k₂ k₃ r,
    (bootKernel threeTasks).svcHandler (.tskCreate 7 high (2 ^ 20)) = .ok (k₁, r) ∧ r.Failed ∧
      k₁.errno = .ENOMEM ∧ Atomic (bootKernel threeTasks) k₁ ∧
      (bootKernel threeTasks).mpoolAlloc 7 64 = .ok (k₂, none) ∧
      Atomic (bootKernel threeTasks) k₂ ∧
      (bootKernel threeTasks).mpoolDealloc mpidIram2 (some 64) = .ok (k₃, rtxErr) ∧
      Atomic (bootKernel threeTasks) k₃ := by
  obtain ⟨⟨k₁, r⟩, h1, h2⟩ := (Option.any_eq_true (fun x : Kernel × Reply => decide x.2.Failed &&
    decide (x.1.errno = .ENOMEM)) ((bootKernel threeTasks).svcHandler
      (.tskCreate 7 high (2 ^ 20))).toOption).mp (by decide +kernel)
  obtain ⟨⟨k₂, ptr⟩, h3, h4⟩ := (Option.any_eq_true (fun x : Kernel × Option Nat => x.2.isNone)
    ((bootKernel threeTasks).mpoolAlloc 7 64).toOption).mp (by decide +kernel)
  obtain ⟨⟨k₃, i⟩, h5, h6⟩ := (Option.any_eq_true (fun x : Kernel × Int => x.2 == rtxErr)
    ((bootKernel threeTasks).mpoolDealloc mpidIram2 (some 64)).toOption).mp (by decide +kernel)
  have hx := toOption_eq_some.mp h1
  have hy := toOption_eq_some.mp h3
  have hz := toOption_eq_some.mp h5
  obtain ⟨h7, h8⟩ : r.Failed ∧ k₁.errno = .ENOMEM := by simpa using h2
  obtain rfl : ptr = none := by simpa using h4
  obtain rfl : i = rtxErr := by simpa using h6
  obtain ⟨h9, h10, h11⟩ := failed_atomic (bootKernel threeTasks)
  exact ⟨k₁, k₂, k₃, r, hx, h7, h8, h9 _ _ _ hx h7, hy, h10 _ _ _ hy, hz, h11 _ _ _ hz⟩

end Rtx
