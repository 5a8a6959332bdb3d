/-
  File:      Rtx/Kern/RestMsg.lean
  Subject:   The mailbox calls keep the kernel at rest.

  What a call does to the tasks is stated apart from what it does to the ring: `pushBuffer` and
  `popBuffer` change no task, and everything else changes the tasks only (`TasksOnly`). The caller
  must not be a real-time task where it gives up the processor: `k_tsk_run_new` does not switch
  away from one.
-/
import Rtx.Kern.Msg
import Rtx.Kern.RestTask

namespace Rtx

open Lib

variable {k k' k₁ : Kernel} {L L' : Lists} {t : Tid} {m : MbxId} {buf : Buf}

/-! ## 1. Frames -/

/-- Only the tasks, their queues and the running task may have changed. -/
structure TasksOnly (k k' : Kernel) : Prop extends SameMem k k' where
  mailbox : k'.mailbox = k.mailbox
  pend : k'.pend = k.pend

theorem TasksOnly.refl (k : Kernel) : TasksOnly k k := ⟨⟨rfl, rfl, rfl⟩, rfl, rfl⟩

theorem TasksOnly.trans {k'' : Kernel} (h : TasksOnly k k') (h' : TasksOnly k' k'') :
    TasksOnly k k'' :=
  ⟨⟨h'.bytes.trans h.bytes, h'.ram1.trans h.ram1, h'.ram2.trans h.ram2⟩,
    h'.mailbox.trans h.mailbox, h'.pend.trans h.pend⟩

namespace Kernel

theorem setRing_active (k : Kernel) (m : MbxId) (mb : Mb) (m' : MbxId) :
    ((k.setRing m mb).mailbox m').active = (k.mailbox m').active := by
  unfold setRing
  simp only [Function.update_apply]
  split
  next e => rw [e]
  · rfl

theorem pushBuffer_eq_ok (h : k.pushBuffer m buf = .ok k₁) :
    ∃ bytes mb r, (k.ring m).pushBuffer k.bytes buf = .ok (bytes, mb, r) ∧
      k₁ = { k.setRing m mb with bytes } := by
  obtain ⟨⟨bytes, mb, r⟩, h1, h2⟩ := bind_eq_ok.mp h
  exact ⟨bytes, mb, r, h1, (Except.ok.inj h2).symm⟩

theorem pushBuffer_of_ok {bytes : Nat → UInt8} {mb : Mb} {r : Int}
    (h : (k.ring m).pushBuffer k.bytes buf = .ok (bytes, mb, r)) :
    k.pushBuffer m buf = .ok { k.setRing m mb with bytes } := bind_of_ok h

theorem popBuffer_eq_ok {buf' : Buf} {len : Nat} {r : Int}
    (h : k.popBuffer m buf len = .ok (k₁, buf', r)) :
    ∃ mb, (k.ring m).popBuffer k.bytes buf len = .ok (mb, buf', r) ∧ k₁ = k.setRing m mb := by
  obtain ⟨⟨mb, buf₁, r₁⟩, h1, h2⟩ := bind_eq_ok.mp h
  obtain ⟨rfl, h3⟩ := Prod.mk.inj (Except.ok.inj h2)
  obtain ⟨rfl, rfl⟩ := Prod.mk.inj h3
  exact ⟨mb, h1, rfl⟩

end Kernel

theorem Rest.setRing (h : Rest k L) (m : MbxId) (mb : Mb) : Rest (k.setRing m mb) L :=
  h.frame rfl rfl rfl rfl (k.setRing_active m mb) rfl

/-- A message put in a ring moves no task. -/
theorem Rest.pushBuffer (h : Rest k L) (hk : k.pushBuffer m buf = .ok k₁) :
    Rest k₁ L ∧ k₁.toTasks = k.toTasks ∧ k₁.current = k.current ∧ k₁.pend = k.pend := by
  obtain ⟨bytes, mb, r, -, rfl⟩ := Kernel.pushBuffer_eq_ok hk
  exact ⟨(h.setRing m mb).frame rfl rfl rfl rfl (fun _ => rfl) rfl, rfl, rfl, rfl⟩

/-- A message taken from a ring moves no task. -/
theorem Rest.popBuffer (h : Rest k L) {buf' : Buf} {len : Nat} {r : Int}
    (hk : k.popBuffer m buf len = .ok (k₁, buf', r)) :
    Rest k₁ L ∧ k₁.toTasks = k.toTasks ∧ k₁.current = k.current ∧ k₁.pend = k.pend := by
  obtain ⟨mb, -, rfl⟩ := Kernel.popBuffer_eq_ok hk
  exact ⟨h.setRing m mb, rfl, rfl, rfl⟩

/-! ## 2. Sending -/

/-- The data of the tasks once the owner of a mailbox was woken. -/
def wokenData (d : Tid → TcbData) : MbxId → Tid → TcbData
  | .uart => d
  | .task t =>
      if (d t).state = .blkRecv then Function.update d t { d t with state := .ready } else d

theorem wokenData_realTime (d : Tid → TcbData) (m : MbxId) : NoNewRt d (wokenData d m) := by
  cases m with
  | uart => exact NoNewRt.refl d
  | task t =>
      unfold wokenData
      simp only
      split
      · exact NoNewRt.update rfl id
      · exact NoNewRt.refl d

/-- A task that waits for a message is not the running one and in no list. -/
theorem Rest.receiver (h : Rest k L) (hb : (k.data t).state = .blkRecv) :
    t ≠ tidNull ∧ t ≠ k.current ∧ Sound k L (insert t {k.current}) ∅ := by
  have h0 : t ≠ tidNull := fun e => by
    have := ((h.task t).null e).2.2
    rw [hb] at this
    simp at this
  have hc : t ≠ k.current := fun e => by
    have := h.current (e ▸ h0)
    rw [← e, hb] at this
    cases this
  exact ⟨h0, hc, h.placed.hold (h.placed.not_mem (Or.inr (Or.inr hb))), h.task, h.pend, h.inactive,
    h.uart⟩

/-- A receiver that waits becomes ready. -/
theorem Rest.ready (h : Rest k L) (hb : (k.data t).state = .blkRecv) {i : Fin 5}
    (hi : readyAt (priority2order (k.data t).prio) = .ok (.ready i)) :
    ∃ s, k.pushTail t (.ready i) = .ok { k with toTasks := s } ∧
      Rest (({ k with toTasks := s } : Kernel).setTaskState t .ready)
        (Function.update L (.ready i) (k.toTasks.queued t (L (.ready i)))) ∧
      (({ k with toTasks := s } : Kernel).setTaskState t .ready).data =
        Function.update k.data t { k.data t with state := .ready } := by
  obtain ⟨h0, hc, hheld⟩ := h.receiver hb
  obtain ⟨s, h1, h2, h3, -⟩ := hheld.pushTail (Set.mem_insert t _) h0
    (fun u hu => absurd hu (Set.notMem_empty u)) (Or.inr (Or.inr hb)) hi
  rw [pair_sdiff_left hc] at h2
  refine ⟨s, h1, ⟨h2, fun hne => ?_⟩, h3⟩
  refine (congrArg TcbData.state (congrFun h3 k.current)).trans ?_
  rw [Function.update_of_ne hc.symm]
  exact h.current hne

/-- **Waking the owner of a mailbox.** The highest ready task runs afterwards unless the owner is
    above the sender and `preempt` says that it does not matter. -/
theorem Rest.wake (h : Rest k L) {preempt : Bool} (h0 : preempt = true → k.current ≠ tidNull)
    (t : Tid) :
    Post (k.wake t preempt) fun k' => ∃ L', Rest k' L' ∧ TasksOnly k k' ∧
      Resched (wokenData k.data (.task t)) k'.data L L' ∧
      (((k.data t).state = .blkRecv → (k.data t).prio < (k.data k.current).prio →
        preempt = true) → Top k L → Top k' L') := by
  unfold Kernel.wake wokenData
  by_cases hb : (k.data t).state = .blkRecv
  · simp only [if_pos hb]
    refine Ends.ite (fun _ => ?_) fun hne => absurd hb hne
    obtain ⟨ht0, hc, -⟩ := h.receiver hb
    obtain ⟨i, hi⟩ := (h.task t).prio ht0
    obtain ⟨s, h1, h2, h3⟩ := h.ready hb (readyAt_priority.mpr hi)
    set k₁ := ({ k with toTasks := s } : Kernel).setTaskState t .ready with hk₁
    have hlists : ∀ m, Function.update L (.ready i) (k.toTasks.queued t (L (.ready i)))
        (.waiting m) = L (.waiting m) := fun m => Function.update_of_ne (by simp) _ _
    have hdc : k₁.data k.current = k.data k.current := by
      rw [h3, Function.update_of_ne hc.symm]
    have hdt : k₁.data t = { k.data t with state := .ready } := by
      rw [h3, Function.update_self]
    refine Ends.bind_ok (readyAt_priority.mpr hi) (Ends.bind_ok h1 ?_)
    refine Ends.ite (fun hlt => ?_) fun hlt => ?_
    · -- the sender makes way for the receiver
      have hlt' : (k.data t).prio < (k.data k.current).prio :=
        (congrArg TcbData.prio hdt).symm.trans_lt (hlt.1.trans_eq (congrArg TcbData.prio hdc))
      have hrt : (k.data k.current).realTime = false := by
        rw [Bool.eq_false_iff]
        intro e
        rw [(h.task k.current).realTime e] at hlt'
        exact absurd hlt' (Nat.not_lt_zero _)
      obtain ⟨-, c, -, hcq⟩ := h.running (h0 hlt.2)
      have hcq' : readyAt (priority2order (k₁.data k₁.current).prio) = .ok (.ready c) :=
        (congrArg (readyAt ∘ priority2order ∘ TcbData.prio) hdc).trans hcq
      obtain ⟨s', t', L', h4, h5, h6, h7⟩ :=
        h2.giveWay (h0 hlt.2) ((congrArg TcbData.realTime hdc).trans hrt) hcq'
      refine Ends.bind_ok hcq' ?_
      refine ⟨L', ?_⟩
      rw [h4]
      exact ⟨h5, ⟨⟨rfl, rfl, rfl⟩, rfl, rfl⟩,
        h3 ▸ ((Resched.lists _ hlists).trans h7), fun _ _ => h6⟩
    · refine ⟨_, h2, ⟨⟨rfl, rfl, rfl⟩, rfl, rfl⟩, h3 ▸ Resched.lists _ hlists,
        fun hpre hT j u hu => ?_⟩
      refine (congrArg TcbData.prio hdc).trans_le ?_
      rw [Function.update_apply] at hu
      split at hu
      next e =>
        obtain rfl := QId.ready.inj e
        rcases Tasks.mem_queued.mp hu with rfl | hu
        · refine hi ▸ not_lt.mp fun hlt' => hlt ⟨?_, hpre hb hlt'⟩
          exact (congrArg TcbData.prio hdt).trans_lt
            (hlt'.trans_eq (congrArg TcbData.prio hdc).symm)
        · exact hT j u hu
      · exact hT j u hu
  · simp only [if_neg hb]
    refine Ends.ite (fun e => absurd e hb) fun _ => ?_
    exact ⟨L, h, TasksOnly.refl k, Resched.refl _ _, fun _ => id⟩

/-- What the checks of the send calls leave. -/
structure Accepted (k : Kernel) (receiverTid : Nat) (buf : Buf) (m : MbxId) : Prop where
  active : (k.mailbox m).active = true
  header : msgHdrSize ≤ buf.length
  fits : buf.length ≤ (k.ring m).capacity
  mbx : (receiverTid = tidUart ∧ m = .uart) ∨
    ∃ t, m = .task t ∧ t.val = receiverTid ∧ (k.data t).state ≠ .dormant

theorem Kernel.checkSend_spec (k : Kernel) (receiverTid : Nat) (buf : Buf) :
    Post (k.checkSend receiverTid buf) fun r => ∀ m, r = .ok m → Accepted k receiverTid buf m := by
  -- the last two checks, once the mailbox is known
  have hlast : ∀ m, msgHdrSize ≤ buf.length → ((receiverTid = tidUart ∧ m = .uart) ∨
      ∃ t, m = .task t ∧ t.val = receiverTid ∧ (k.data t).state ≠ .dormant) →
      Post (if (k.mailbox m).active = false then pure (Except.error Errno.ENOENT)
        else if buf.length > (k.ring m).capacity then pure (Except.error Errno.EMSGSIZE)
        else pure (Except.ok m) : Except Fault (Except Errno MbxId))
          fun r => ∀ m, r = .ok m → Accepted k receiverTid buf m := by
    intro m hlen hm
    refine Ends.ite (fun _ m e => by cases e) fun hact => ?_
    refine Ends.ite (fun _ m e => by cases e) fun hfit m' e => ?_
    obtain rfl := Except.ok.inj e
    exact ⟨by simpa using hact, hlen, not_lt.mp hfit, hm⟩
  unfold Kernel.checkSend
  refine Ends.ite (fun hne => ?_) fun he => ?_
  · cases ht : tcbAt receiverTid with
    | error f => exact trivial
    | ok t =>
        obtain ⟨hlt, rfl⟩ : ∃ h : receiverTid < 16, t = ⟨receiverTid, h⟩ := by
          unfold tcbAt at ht
          split at ht
          next h => exact ⟨h, (Except.ok.inj ht).symm⟩
          · cases ht
        refine Ends.ite (fun _ m e => by cases e) fun hd => ?_
        refine Ends.ite (fun _ m e => by cases e) fun hlen => ?_
        refine Ends.ite (fun e => absurd e hne) fun _ => ?_
        refine Ends.bind_ok (a := .task ⟨receiverTid, hlt⟩) (by unfold mbxAt; rw [dif_pos hlt]) ?_
        exact hlast _ (not_lt.mp hlen) (Or.inr ⟨_, rfl, rfl, hd⟩)
  · refine Ends.ite (fun _ m e => by cases e) fun hlen => ?_
    refine Ends.ite (fun e => ?_) fun hne => absurd (not_not.mp he) hne
    exact hlast _ (not_lt.mp hlen) (Or.inl ⟨e, rfl⟩)

/-- **Delivering a message**: the ring takes it, and the owner of the mailbox is woken. -/
theorem Rest.deliver (h : Rest k L) {preempt : Bool} (h0 : preempt = true → k.current ≠ tidNull)
    (m : MbxId) (buf : Buf) :
    Post (k.deliver m buf preempt) fun k' => ∃ k₁ L', k.pushBuffer m buf = .ok k₁ ∧ Rest k' L' ∧
      TasksOnly k₁ k' ∧ Resched (wokenData k.data m) k'.data L L' ∧
      ((∀ t, m = .task t → (k.data t).state = .blkRecv →
        (k.data t).prio < (k.data k.current).prio → preempt = true) → Top k L → Top k' L') := by
  unfold Kernel.deliver
  cases hk : k.pushBuffer m buf with
  | error f => exact trivial
  | ok k₁ =>
      obtain ⟨h1, h2, h3, -⟩ := h.pushBuffer hk
      have hd : k₁.data = k.data := congrArg Tasks.data h2
      have htop : Top k L → Top k₁ L := fun hT j u hu => by
        rw [hd, h3]
        exact hT j u hu
      cases m with
      | uart =>
          refine ⟨k₁, L, rfl, h1, TasksOnly.refl k₁, ?_, fun _ => htop⟩
          rw [hd]
          exact Resched.refl _ _
      | task t =>
          refine (h1.wake (h3 ▸ h0) t).imp fun k' hk' => ?_
          obtain ⟨L', h4, h5, h6, h7⟩ := hk'
          rw [hd, h3] at h7
          rw [hd] at h6
          exact ⟨k₁, L', rfl, h4, h5, h6, fun hp hT => h7 (hp t rfl) (htop hT)⟩

/-- The TCB of a sender that waits until its message fits. -/
def senderData (d : TcbData) (buf : Buf) : TcbData :=
  { d with state := .blkSend, messageHeader := some buf }

/-- **Blocking a sender** at the end of the waiting list. -/
theorem Rest.blockSend (h : Rest k L) (h0 : k.current ≠ tidNull)
    (hrt : (k.data k.current).realTime = false) (hm : (k.mailbox m).active = true) (buf : Buf) :
    Post (k.blockSend m buf) fun k' => ∃ L', Rest k' L' ∧ Top k' L' ∧ TasksOnly k k' ∧
      Resched (Function.update k.data k.current (senderData (k.data k.current) buf)) k'.data
        (Function.update L (.waiting m) (L (.waiting m) ++ [k.current])) L' := by
  have hok := h.task k.current
  have hd := k.data_modifyTcb k.current fun d => senderData d buf
  have hdc := (congrFun hd k.current).trans (Function.update_self _ _ _)
  have h1 := h.toSound.modify (t := k.current) (f := fun d => senderData d buf) (Or.inl rfl)
    ⟨hok.prio, fun e => absurd e h0, hok.realTime, fun e => (by cases e), fun _ => hrt,
      fun _ => hok.tid (by rw [h.current h0]; simp), fun _ => (by simp [senderData])⟩ fun _ => hrt
  obtain ⟨s, h2, h3, h4⟩ := h1.pushTail_keep (t := k.current) (q := .waiting m) rfl h0
    (fun u hu => absurd hu (Set.notMem_empty u)) (congrArg TcbData.state hdc) (Or.inl rfl)
    (fun m' e => by cases e; exact hm)
  have hq : (k.modifyTcb k.current fun d => senderData d buf).queued k.current
      (L (.waiting m)) = L (.waiting m) ++ [k.current] := by
    have hr : ((k.modifyTcb k.current fun d => senderData d buf).data k.current).realTime = false :=
      (congrArg TcbData.realTime hdc).trans hrt
    unfold Tasks.queued
    rw [if_neg (by rw [hr]; simp)]
  rw [hq, Set.sdiff_self] at h3
  have hsc := (congrFun h4 k.current).trans hdc
  obtain ⟨s', t', L', h5, h6, h7, h8, -⟩ := h3.runNew ((congrArg TcbData.realTime hsc).trans hrt)
    fun _ => Or.inr (Or.inr (congrArg TcbData.state hsc))
  unfold Kernel.blockSend
  refine Ends.bind_ok h2 ?_
  simp only [h5]
  refine ⟨L', h6, h7, ⟨⟨rfl, rfl, rfl⟩, rfl, rfl⟩, ?_⟩
  have hsd : s.data = Function.update k.data k.current (senderData (k.data k.current) buf) :=
    h4.trans hd
  exact hsd ▸ h8


/-! ## 3. The waiting senders -/

/-- A round of the loop of the receive calls: the message of the first waiting sender goes into the
    ring, and the sender becomes ready. -/
structure Round (m : MbxId) (k : Kernel) (L : Lists) (t : Tid) (l : List Tid) (buf : Buf)
    (k' : Kernel) (L' : Lists) : Prop where
  list : L (.waiting m) = t :: l
  header : (k.data t).messageHeader = some buf
  fits : (k.ring m).canFit buf.length = 1
  pushed : ∃ k₁, k.pushBuffer m buf = .ok k₁ ∧ TasksOnly k₁ k'
  data : k'.data = Function.update k.data t { k.data t with state := .ready }
  waiting : ∀ m', L' (.waiting m') = Function.update L (.waiting m) l (.waiting m')
  current : k'.current = k.current

/-- The first waiting sender of a mailbox, if there is one, has a message that does not fit. -/
def Stopped (k : Kernel) (L : Lists) (m : MbxId) : Prop :=
  ∀ t l buf, L (.waiting m) = t :: l → (k.data t).messageHeader = some buf →
    (k.ring m).canFit buf.length ≠ 1

theorem Rest.round (h : Rest k L) {l : List Tid} (hL : L (.waiting m) = t :: l)
    (hb : (k.data t).messageHeader = some buf) (hf : (k.ring m).canFit buf.length = 1) :
    Post ((k.popHead (.waiting m)).pushBuffer m buf) fun k₁ =>
      ∃ i s L', readyAt (priority2order (k₁.data t).prio) = .ok (.ready i) ∧
        k₁.pushTail t (.ready i) = .ok { k₁ with toTasks := s } ∧
        Rest { k₁ with toTasks := s } L' ∧
        Round m k L t l buf { k₁ with toTasks := s } L' := by
  obtain ⟨h1, h2⟩ := h.toSound.popHead hL
  rw [QId.state, if_pos rfl] at h2
  have hmem : t ∈ L (.waiting m) := hL ▸ List.mem_cons_self
  obtain ⟨hc, h0⟩ := h.placed.not_held hmem
  have hct : t ≠ k.current := hc
  obtain ⟨i, hi⟩ := (h.task t).prio h0
  cases hk : (k.popHead (.waiting m)).pushBuffer m buf with
  | error f => exact trivial
  | ok k₁ =>
      obtain ⟨bytes, mb, r, hr, rfl⟩ := Kernel.pushBuffer_eq_ok hk
      have h3 : Sound { (k.popHead (.waiting m)).setRing m mb with bytes } _ _ ∅ :=
        h1.frame rfl rfl rfl (Kernel.setRing_active _ m mb) rfl
      have hdt := (congrFun h2 t).trans (Function.update_self _ _ _)
      have hq : readyAt (priority2order ((k.popHead (.waiting m)).data t).prio) =
          .ok (.ready i) := readyAt_priority.mpr ((congrArg TcbData.prio hdt).trans hi)
      obtain ⟨s, h4, h5, h6, h7⟩ := h3.pushTail (t := t) (i := i) (Set.mem_insert t _) h0
        (fun u hu => absurd hu (Set.notMem_empty u)) (Or.inl (congrArg TcbData.state hdt)) hq
      have hself := h7 (Or.inr (congrArg TcbData.state hdt))
      rw [hself] at h5 h6
      rw [Set.insert_sdiff_self_of_notMem hc] at h5
      have hd : s.data = Function.update k.data t { k.data t with state := .ready } := by
        refine h6.trans ?_
        change Function.update (k.popHead (.waiting m)).data t _ = _
        rw [h2, Function.update_idem]
        congr 1
        exact congrArg (fun d : TcbData => { d with state := TaskState.ready }) hdt
      refine ⟨i, s, _, hq, h4, ⟨h5, fun hne => ?_⟩, hL, hb, hf,
        ⟨_, Kernel.pushBuffer_of_ok hr, ⟨rfl, rfl, rfl⟩, rfl, rfl⟩, hd,
        fun m' => Function.update_of_ne (by simp) _ _, rfl⟩
      refine (congrArg TcbData.state (congrFun hd k.current)).trans ?_
      rw [Function.update_of_ne hct.symm]
      exact h.current hne

section Loop

variable {k : Kernel} {m : MbxId} {t : Tid} {buf : Buf} (n : Nat)

/-- The loop ends when nobody waits. -/
theorem Kernel.releaseLoop_nil (hh : (k.queue (.waiting m)).head = none) :
    releaseLoop m (n + 1) k = .ok k := by
  unfold releaseLoop
  rw [hh]

/-- One turn of the loop. -/
theorem Kernel.releaseLoop_cons (hh : (k.queue (.waiting m)).head = some t)
    (hb : (k.tcb t).messageHeader = some buf) : releaseLoop m (n + 1) k =
      if (k.ring m).canFit buf.length ≠ 1 then .ok k
      else (k.popHead (.waiting m)).pushBuffer m buf >>= fun k₁ =>
        readyAt (priority2order (k₁.tcb t).prio) >>= fun i =>
          k₁.pushTail t i >>= fun k₂ => releaseLoop m n k₂ := by
  rw [releaseLoop]
  simp only [hh, hb]

end Loop

/-- **The loop of the receive calls**: what every round keeps holds afterwards, and the loop ends
    when nobody waits or the first message does not fit. -/
theorem Rest.releaseLoop {J : Kernel → Lists → Prop}
    (hJ : ∀ k L t l buf k' L', Rest k L → J k L → Round m k L t l buf k' L' → Rest k' L' → J k' L')
    (n : Nat) (h : Rest k L) (hj : J k L) :
    Post (Kernel.releaseLoop m n k) fun k' => ∃ L', Rest k' L' ∧ J k' L' ∧
      ((L (.waiting m)).length ≤ n → Stopped k' L' m) := by
  induction n generalizing k L with
  | zero =>
      refine ⟨L, h, hj, fun hn t l buf hL => ?_⟩
      rw [hL] at hn
      exact absurd hn (by simp)
  | succ n ih =>
      have hhead := (h.placed.rep.chain (.waiting m)).head
      cases hL : L (.waiting m) with
      | nil =>
          rw [hL] at hhead
          rw [Kernel.releaseLoop_nil n hhead]
          refine ⟨L, h, hj, fun _ t l buf hL' => ?_⟩
          rw [hL] at hL'
          cases hL'
      | cons t l =>
          rw [hL] at hhead
          cases hb : (k.tcb t).messageHeader with
          | none =>
              unfold Kernel.releaseLoop
              rw [show (k.queue (.waiting m)).head = some t from hhead]
              simp only [hb]
              exact trivial
          | some buf =>
              rw [Kernel.releaseLoop_cons n hhead hb]
              refine Ends.ite (fun hf => ⟨L, h, hj, fun _ t' l' buf' hL' hb' => ?_⟩) fun hf => ?_
              · rw [hL] at hL'
                obtain ⟨rfl, -⟩ := List.cons.inj hL'
                obtain rfl := Option.some.inj (hb.symm.trans hb')
                exact hf
              · refine Ends.bind (h.round hL hb (not_not.mp hf)) fun k₁ hk₁ => ?_
                obtain ⟨i, s, L₁, h1, h2, h3, h4⟩ := hk₁
                refine Ends.bind_ok h1 (Ends.bind_ok h2 ?_)
                refine (ih h3 (hJ _ _ _ _ _ _ _ h hj h4 h3)).imp fun k' hk' => ?_
                obtain ⟨L', h5, h6, h7⟩ := hk'
                refine ⟨L', h5, h6, fun hn => h7 ?_⟩
                rw [h4.waiting m, Function.update_self]
                exact Nat.le_of_succ_le_succ hn

/-- The loop from its first round: it makes as many rounds as it takes, and leaves the running task
    alone. -/
theorem Rest.release {J : Kernel → Lists → Prop}
    (hJ : ∀ k L t l buf k' L', Rest k L → J k L → Round m k L t l buf k' L' → Rest k' L' → J k' L')
    (h : Rest k L) (hj : J k L) :
    Post (k.release m) fun k' => ∃ L', Rest k' L' ∧ J k' L' ∧ Stopped k' L' m ∧
      k'.current = k.current ∧ k'.data k.current = k.data k.current ∧
      NoNewRt k.data k'.data := by
  refine (Rest.releaseLoop (m := m) (J := fun k' L' => J k' L' ∧ k'.current = k.current ∧
    k'.data k.current = k.data k.current ∧ NoNewRt k.data k'.data)
    (fun k₁ L₁ t l buf k₂ L₂ h₁ hj₁ hr h₂ => ?_) _ h
    ⟨hj, rfl, rfl, NoNewRt.refl _⟩).imp fun k' hk' => ?_
  · obtain ⟨h1, h2, h3, h4⟩ := hj₁
    have htc : t ≠ k.current := by
      have := (h₁.placed.not_held (hr.list ▸ List.mem_cons_self : t ∈ L₁ (.waiting m))).1
      rw [h2] at this
      exact this
    refine ⟨hJ _ _ _ _ _ _ _ h₁ h1 hr h₂, hr.current.trans h2, ?_,
      h4.trans (NoNewRt.update hr.data id)⟩
    rw [hr.data, Function.update_of_ne htc.symm]
    exact h3
  · obtain ⟨L', h1, ⟨h2, h3, h4, h5⟩, h6⟩ := hk'
    exact ⟨L', h1, h2, h6 (h.placed.rep.chain (.waiting m)).size.ge, h3, h4, h5⟩

/-! ## 4. Receiving -/

/-- A task may have the second half of a `k_recv_msg` before it if it is not a real-time task. -/
theorem Sound.setPend {H X : Set Tid} (h : Sound k L H X) {p : Option Pending}
    (ht : p ≠ none → t ≠ tidNull ∧ (k.data t).realTime = false) :
    Sound { k with pend := Function.update k.pend t p } L H X := by
  refine ⟨h.placed, h.task, fun u hu => ?_, h.inactive, h.uart⟩
  change Function.update k.pend t p u ≠ none at hu
  rw [Function.update_apply] at hu
  split at hu
  next e => exact e ▸ ht hu
  · exact h.pend u hu

/-- A task reads its own mailbox. -/
theorem Rest.recvMbx (h : Rest k L) (h0 : k.current ≠ tidNull) :
    k.recvMbx = .ok (.task k.current) := by
  have htid : k.cur.tid = k.current.val := (h.task k.current).tid (by rw [h.current h0]; simp)
  unfold Kernel.recvMbx
  rw [h.uart, if_neg (by simp), htid]
  unfold mbxAt
  rw [dif_pos k.current.isLt]

/-- **Blocking a receiver** whose mailbox is empty. -/
theorem Rest.blockRecv (h : Rest k L) (h0 : k.current ≠ tidNull)
    (hrt : (k.data k.current).realTime = false) (p : Pending) :
    ∃ s t L', (k.setTaskState k.current .blkRecv).kTskRunNew =
        ({ k with toTasks := s, current := t }, true) ∧
      Rest { k with toTasks := s, current := t, pend := Function.update k.pend k.current (some p) }
        L' ∧
      Top { k with toTasks := s, current := t, pend := Function.update k.pend k.current (some p) }
        L' ∧
      Resched (Function.update k.data k.current { k.data k.current with state := .blkRecv }) s.data
        L L' := by
  have hok := h.task k.current
  have hd := k.data_setTaskState k.current .blkRecv
  have hdc := (congrFun hd k.current).trans (Function.update_self _ _ _)
  have h1 := h.toSound.modify (t := k.current) (f := fun d => { d with state := .blkRecv })
    (Or.inl rfl) ⟨hok.prio, fun e => absurd e h0, hok.realTime, fun e => (by cases e),
      fun _ => hrt, fun _ => hok.tid (by rw [h.current h0]; simp), fun e => (by cases e)⟩
    fun _ => hrt
  have h2 := h1.placed.drop (t := k.current) (Or.inr (Or.inr (congrArg TcbData.state hdc)))
  rw [Set.sdiff_self] at h2
  obtain ⟨s, t, L', h3, h4, h5, h6, h7⟩ := (⟨h2, h1.task, h1.pend, h1.inactive, h1.uart⟩ :
    Sound (k.setTaskState k.current .blkRecv) L ∅ ∅).runNew
      ((congrArg TcbData.realTime hdc).trans hrt)
      fun _ => Or.inr (Or.inl (congrArg TcbData.state hdc))
  -- the caller is in no queue, so another task runs
  have htc : t ≠ k.current := by
    intro e
    cases h7 with
    | none => exact h0 e.symm
    | head i t l hi hj =>
        exact (h.placed.not_held (hi ▸ List.mem_cons_self : t ∈ L (.ready i))).1 e
  have hsc : s.data k.current = { k.data k.current with state := .blkRecv } :=
    (h6.blocked k.current (Or.inr (congrArg TcbData.state hdc))).trans hdc
  refine ⟨s, t, L', ?_, ⟨h4.toSound.setPend fun _ => ⟨h0, ?_⟩, h4.current⟩, h5, hd ▸ h6⟩
  · rw [h3]
    have : decide (t ≠ (k.setTaskState k.current .blkRecv).current) = true := decide_eq_true htc
    rw [this]
    rfl
  · exact (congrArg TcbData.realTime hsc).trans hrt

/-- The receiver gives way once it has its message. -/
theorem Rest.givesWay (h : Rest k L) (h0 : k.current ≠ tidNull)
    (hrt : (k.data k.current).realTime = false) :
    Post k.giveWay fun k' => ∃ L', Rest k' L' ∧ Top k' L' ∧ TasksOnly k k' ∧
      Resched k.data k'.data L L' := by
  obtain ⟨-, i, -, hi⟩ := h.running h0
  obtain ⟨s, t, L', h1, h2, h3, h4⟩ := h.giveWay h0 hrt hi
  unfold Kernel.giveWay
  exact Ends.bind_ok hi (Ends.intro_ok (congrArg Except.ok h1)
    ⟨L', h2, h3, ⟨⟨rfl, rfl, rfl⟩, rfl, rfl⟩, h4⟩)


/-- The waiting senders are released, and the receiver can give way. -/
theorem Rest.released (h : Rest k L) (h0 : k.current ≠ tidNull)
    (hrt : (k.data k.current).realTime = false) (m : MbxId) :
    Post (k.release m) fun k₁ => (∃ L₁, Rest k₁ L₁) ∧
      Post k₁.giveWay fun k' => ∃ L', Rest k' L' ∧ Top k' L' ∧ NoNewRt k.data k'.data := by
  refine (Rest.release (J := fun _ _ => True) (fun _ _ _ _ _ _ _ _ _ _ _ => trivial) h
    trivial).imp fun k₁ hk₁ => ?_
  obtain ⟨L₁, h1, -, -, h2, h3, h4⟩ := hk₁
  have hrt₁ : (k₁.data k₁.current).realTime = false := by
    rw [h2, h3]
    exact hrt
  refine ⟨⟨L₁, h1⟩, (h1.givesWay (h2 ▸ h0) hrt₁).imp fun k' hk' => ?_⟩
  obtain ⟨L', h5, h6, -, h7⟩ := hk'
  exact ⟨L', h5, h6, h4.trans h7.realTime⟩

namespace Kernel

/-- `k_recv_msg(buf, len)` gets past its checks. -/
def receives (k : Kernel) (buf : Option Buf) (len : Nat) : Bool :=
  match buf with
  | none => false
  | some buf => (k.mailbox (.task k.current)).active &&
      match k.popBuffer (.task k.current) buf len with
      | .ok (_, _, check) => check ≠ -1
      | .error _ => false

/-- `k_recv_msg_nb(buf, len)` gets past its checks. -/
def receivesNb (k : Kernel) (buf : Option Buf) (len : Nat) : Bool :=
  k.receives buf len && (k.ring (.task k.current)).currentSize ≠ 0

/-- `k_send_msg(receiverTid, buf)` gets past its checks and finds no room. -/
def sendBlocks (k : Kernel) (receiverTid : Nat) (buf : Buf) : Bool :=
  match k.checkSend receiverTid buf with
  | .ok (.ok m) => !k.admits m buf
  | _ => false

end Kernel

section Recv

variable (h : Rest k L) (h0 : k.current ≠ tidNull) {len : Nat} {b : Option Buf}
include h h0

omit h0 in
/-- Behind `pop_buffer`, what keeps the kernel at rest and the highest task running does so seen from
    the start of the call. -/
theorem Rest.kept_pop {m : MbxId} {buf' : Buf} {r : Int}
    (hp : k.popBuffer m buf len = .ok (k₁, buf', r)) (h1 : Rest k' L') (h2 : Top k₁ L → Top k' L')
    (h3 : NoNewRt k₁.data k'.data) : Kept k k' L := by
  obtain ⟨-, h4, h5, -⟩ := h.popBuffer hp
  have hd : k₁.data = k.data := congrArg Tasks.data h4
  refine ⟨L', h1, fun hT => h2 fun j u hu => ?_, hd ▸ h3⟩
  rw [hd, h5]
  exact hT j u hu

/-- **`k_recv_msg`** keeps the kernel at rest, if a real-time task does not get past its checks. -/
theorem Rest.kRecvMsg
    (hrt : (k.data k.current).realTime = true → k.receives b len = false) :
    Post (k.kRecvMsg b len) fun r => Kept k r.1 L := by
  unfold Kernel.kRecvMsg
  cases b with
  | none => exact (h.refused _).kept
  | some buf =>
      refine Ends.bind_ok (h.recvMbx h0) ?_
      refine Ends.ite (fun _ => (h.refused _).kept) fun hact => ?_
      cases hp : k.popBuffer (.task k.current) buf len with
      | error f => exact trivial
      | ok r =>
          obtain ⟨k₁, buf', check⟩ := r
          obtain ⟨h1, h2, h3, -⟩ := h.popBuffer hp
          refine Ends.ite (fun _ => ?_) fun hne => ?_
          · exact h.kept_pop hp (h1.frame rfl rfl rfl rfl (fun _ => rfl) rfl) id (NoNewRt.refl _)
          have hrt₁ : (k₁.data k₁.current).realTime = false := by
            rw [show k₁.data = k.data from congrArg Tasks.data h2, h3, Bool.eq_false_iff]
            intro e
            have := hrt e
            unfold Kernel.receives at this
            simp [hp, hne, hact] at this
          refine Ends.ite (fun _ => ?_) fun _ => ?_
          · obtain ⟨s, t, L', h5, h6, h7, h8⟩ := h1.blockRecv (h3 ▸ h0) hrt₁
              ⟨.task k.current, buf', len⟩
            have hblk : NoNewRt k₁.data (Function.update k₁.data k₁.current
                { k₁.data k₁.current with state := .blkRecv }) := NoNewRt.update rfl id
            simp only [h5]
            exact h.kept_pop hp h6 (fun _ => h7) (hblk.trans h8.realTime)
          · refine Ends.bind (h1.released (h3 ▸ h0) hrt₁ _) fun k₂ hk₂ => ?_
            refine Ends.bind hk₂.2 fun k₃ hk₃ => ?_
            obtain ⟨L', h5, h6, h7⟩ := hk₃
            exact h.kept_pop hp h5 (fun _ => h6) h7

/-- **`k_recv_msg_nb`**, likewise. -/
theorem Rest.kRecvMsgNb
    (hrt : (k.data k.current).realTime = true → k.receivesNb b len = false) :
    Post (k.kRecvMsgNb b len) fun r => Kept k r.1 L := by
  unfold Kernel.kRecvMsgNb
  cases b with
  | none => exact (h.refused _).kept
  | some buf =>
      refine Ends.bind_ok (h.recvMbx h0) ?_
      refine Ends.ite (fun _ => (h.refused _).kept) fun hact => ?_
      refine Ends.ite (fun _ => (h.refused _).kept) fun hsize => ?_
      cases hp : k.popBuffer (.task k.current) buf len with
      | error f => exact trivial
      | ok r =>
          obtain ⟨k₁, buf', check⟩ := r
          obtain ⟨h1, h2, h3, -⟩ := h.popBuffer hp
          refine Ends.ite (fun _ => ?_) fun hne => ?_
          · exact h.kept_pop hp (h1.frame rfl rfl rfl rfl (fun _ => rfl) rfl) id (NoNewRt.refl _)
          have hrt₁ : (k₁.data k₁.current).realTime = false := by
            rw [show k₁.data = k.data from congrArg Tasks.data h2, h3, Bool.eq_false_iff]
            intro e
            have := hrt e
            unfold Kernel.receivesNb Kernel.receives at this
            simp [hp, hne, hact, hsize] at this
          refine Ends.bind (h1.released (h3 ▸ h0) hrt₁ _) fun k₂ hk₂ => ?_
          obtain ⟨⟨L₂, h4⟩, hk₂⟩ := hk₂
          refine Ends.ite (fun e => absurd e (by rw [h4.uart]; simp)) fun _ => ?_
          refine Ends.bind hk₂ fun k₃ hk₃ => ?_
          obtain ⟨L', h5, h6, h7⟩ := hk₃
          exact h.kept_pop hp h5 (fun _ => h6) h7

/-- **The second half of a `k_recv_msg`** that was switched out. -/
theorem Rest.resumeRecv {p : Pending} (hp : k.pend k.current = some p) :
    Post (k.resumeRecv p) fun r => Kept k r.1 L := by
  have hrt := (h.pend k.current (by rw [hp]; simp)).2
  have h' : Rest { k with pend := Function.update k.pend k.current none } L :=
    ⟨h.toSound.setPend fun e => absurd rfl e, h.current⟩
  unfold Kernel.resumeRecv Kernel.recvRest
  refine ends_bind.mpr (ends_bind.mpr ?_)
  cases hpop : Kernel.popBuffer { k with pend := Function.update k.pend k.current none } p.mbx p.buf
    p.len with
  | error f => exact trivial
  | ok r =>
      obtain ⟨k₁, buf', check⟩ := r
      obtain ⟨h1, h2, h3, -⟩ := h'.popBuffer hpop
      have hrt₁ : (k₁.data k₁.current).realTime = false := by
        rw [show k₁.data = k.data from congrArg Tasks.data h2, h3]
        exact hrt
      refine Ends.bind (h1.released (h3 ▸ h0) hrt₁ _) fun k₂ hk₂ => ?_
      refine Ends.bind hk₂.2 fun k₃ hk₃ => ?_
      obtain ⟨L', h5, h6, h7⟩ := hk₃
      exact h'.kept_pop hpop h5 (fun _ => h6) h7

/-! ## 5. The send calls -/

/-- **`k_send_msg`** keeps the kernel at rest, if a real-time task does not block in it. -/
theorem Rest.kSendMsg {receiverTid : Nat}
    (hrt : (k.data k.current).realTime = true → k.sendBlocks receiverTid buf = false) :
    Post (k.kSendMsg receiverTid buf) fun r => Kept k r.1 L := by
  unfold Kernel.kSendMsg
  cases hc : k.checkSend receiverTid buf with
  | error f => exact trivial
  | ok r =>
      cases r with
      | error e => exact (h.refused _).kept
      | ok m =>
          have hacc := (k.checkSend_spec receiverTid buf).of_ok hc m rfl
          refine Ends.ite (fun hadm => ?_) fun hadm => ?_
          · refine Ends.bind (h.deliver (fun _ => h0) m buf) fun k' hk' => ?_
            obtain ⟨k₁, L', -, h1, -, h2, h3⟩ := hk'
            exact ⟨L', h1, h3 fun _ _ _ _ => rfl,
              (wokenData_realTime k.data m).trans h2.realTime⟩
          · have hrt' : (k.data k.current).realTime = false := by
              rw [Bool.eq_false_iff]
              intro e
              have := hrt e
              unfold Kernel.sendBlocks at this
              simp [hc, hadm] at this
            refine Ends.bind (h.blockSend h0 hrt' hacc.active buf) fun k' hk' => ?_
            obtain ⟨L', h1, h2, -, h3⟩ := hk'
            have hblk : NoNewRt k.data (Function.update k.data k.current
                (senderData (k.data k.current) buf)) := NoNewRt.update rfl id
            exact ⟨L', h1, fun _ => h2, hblk.trans h3.realTime⟩

/-- The message claims to come from the UART and wakes a task above the caller, which is not made to
    give way. -/
def Kernel.outranked (k : Kernel) (receiverTid : Nat) (buf : Buf) : Bool :=
  match k.checkSend receiverTid buf with
  | .ok (.ok (.task t)) => decide (buf.senderTid = tidUart) && k.admits (.task t) buf &&
      decide ((k.tcb t).state = .blkRecv) && decide ((k.tcb t).prio < k.cur.prio)
  | _ => false

/-- **`k_send_msg_nb`** keeps the kernel at rest. The highest ready task runs afterwards unless the
    message wakes a task above the caller under the name of the UART. -/
theorem Rest.kSendMsgNb (receiverTid : Nat) (buf : Buf) :
    Post (k.kSendMsgNb receiverTid buf) fun r => ∃ L', Rest r.1 L' ∧
      (k.outranked receiverTid buf = false → Top k L → Top r.1 L') ∧ NoNewRt k.data r.1.data := by
  have hrefused : ∀ e, ∃ L', Rest (k.setErrno e) L' ∧
      (k.outranked receiverTid buf = false → Top k L → Top (k.setErrno e) L') ∧
      NoNewRt k.data (k.setErrno e).data := fun e => by
    obtain ⟨L', h1, h2, h3⟩ := (h.refused e).kept
    exact ⟨L', h1, fun _ => h2, h3⟩
  unfold Kernel.kSendMsgNb
  cases hc : k.checkSend receiverTid buf with
  | error f => exact trivial
  | ok r =>
      cases r with
      | error e => exact hrefused e
      | ok m =>
          refine Ends.ite (fun hadm => ?_) fun _ => hrefused _
          refine Ends.bind (h.deliver (fun _ => h0) m buf) fun k' hk' => ?_
          obtain ⟨k₁, L', -, h1, -, h2, h3⟩ := hk'
          refine ⟨L', h1, fun hout => h3 fun t ht hb hlt => ?_,
            (wokenData_realTime k.data m).trans h2.realTime⟩
          subst ht
          refine decide_eq_true fun hu => ?_
          have hb' : (k.tcb t).state = .blkRecv := hb
          have hlt' : (k.tcb t).prio < k.cur.prio := hlt
          unfold Kernel.outranked at hout
          simp [hc, hu, hadm, hb', hlt'] at hout

end Recv

/-! ## 6. `k_mbx_create` -/

/-- **What `k_mbx_create` does.** The new mailbox has no waiting senders, so setting up its waiting
    list changes nothing. -/
theorem Rest.kMbxCreate_spec (h : Rest k L) (h0 : k.current ≠ tidNull) (size : Nat) :
    Post (k.kMbxCreate size) fun r => (∃ e, r.1 = k.setErrno e) ∨
      ∃ m ptr, kMpoolAlloc k.mem mpidIram2 size = some (m, ptr) ∧
        (k.mailbox (.task k.current)).active = false ∧ msgHdrSize ≤ size ∧
        (ptr = none ∧ r.1 = { k with ram1 := m.ram1, ram2 := m.ram2, errno := .ENOMEM } ∨
          ∃ a, ptr = some a ∧ r.1 = { k with
            ram1 := m.ram1, ram2 := m.ram2, errno := m.errno
            mailbox := Function.update k.mailbox (.task k.current)
              ⟨true, Mb.create a size⟩ }) := by
  have htid : k.cur.tid = k.current.val := (h.task k.current).tid (by rw [h.current h0]; simp)
  unfold Kernel.kMbxCreate
  rw [htid]
  refine Ends.bind_ok (a := .task k.current)
    (by unfold mbxAt; rw [dif_pos k.current.isLt]) ?_
  refine Ends.ite (fun _ => Or.inl ⟨_, rfl⟩) fun hact => ?_
  refine Ends.ite (fun _ => Or.inl ⟨_, rfl⟩) fun hsize => ?_
  have hact' : (k.mailbox (.task k.current)).active = false := by simpa using hact
  cases hal : k.mpoolAlloc mpidIram2 size with
  | error f => exact trivial
  | ok x =>
      obtain ⟨k₁, ptr⟩ := x
      obtain ⟨m, hm, rfl⟩ := mpoolAlloc_eq_ok hal
      cases ptr with
      | none => exact Or.inr ⟨m, none, hm, hact', not_lt.mp hsize, Or.inl ⟨rfl, rfl⟩⟩
      | some a =>
          refine Or.inr ⟨m, some a, hm, hact', not_lt.mp hsize, Or.inr ⟨a, rfl, ?_⟩⟩
          have hq : k.queue (.waiting (.task k.current)) = ⟨none, none, 0⟩ := by
            rw [(h.placed.rep.chain (.waiting (.task k.current))).queue_eq, h.inactive _ hact']
            rfl
          have hself : Function.update k.queue (.waiting (.task k.current)) ⟨none, none, 0⟩ =
              k.queue := by
            rw [← hq]
            exact Function.update_eq_self _ _
          change ({ k with
            tcb := k.tcb
            queue := Function.update k.queue _ _
            errno := m.errno
            ram1 := m.ram1, ram2 := m.ram2, mailbox := _ } : Kernel) = _
          rw [hself]

/-- The running task has a new mailbox. -/
theorem Rest.newMailbox (h : Rest k L) (m : Mem) (mb : Mb) : Rest { k with
    ram1 := m.ram1, ram2 := m.ram2, errno := m.errno
    mailbox := Function.update k.mailbox (.task k.current) ⟨true, mb⟩ } L := by
  refine ⟨⟨h.placed.frame rfl rfl, h.task, h.pend, fun m' hm' => h.inactive m' ?_, h.uart⟩,
    h.current⟩
  change (Function.update k.mailbox _ _ m').active = false at hm'
  rw [Function.update_apply] at hm'
  split at hm'
  · cases hm'
  · exact hm'

theorem Rest.kMbxCreate (h : Rest k L) (h0 : k.current ≠ tidNull) (size : Nat) :
    Post (k.kMbxCreate size) fun r => Kept k r.1 L := by
  refine (h.kMbxCreate_spec h0 size).imp fun r hr => ?_
  obtain ⟨e, he⟩ | ⟨m, ptr, -, -, -, ⟨-, hr⟩ | ⟨a, -, hr⟩⟩ := hr
  · rw [he]
    exact (h.refused e).kept
  · rw [hr]
    exact ⟨L, h.frame rfl rfl rfl rfl (fun _ => rfl) rfl, id, NoNewRt.refl _⟩
  · rw [hr]
    exact ⟨L, h.newMailbox m _, id, NoNewRt.refl _⟩

end Rtx
