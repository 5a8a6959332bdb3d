/-
  File:      Rtx/Kern/Progress.lean
  Subject:   Which events the kernel gets through.

  A fault of the model is a NULL that is dereferenced, an index outside its array, a copy outside
  its ring or a loop that does not end. `Kernel.Answerable` says of a state and an event what has to
  hold for the kernel to get through it, and it is exact: in the states of tame runs an event ends
  in a fault if and only if it is not answerable (`answered`).

  The memory calls of the tasks need the books of IRAM1: a block that is freed must be one that was
  handed out to a task, and merge cleanly.
-/
import Rtx.Kern.Blocks
import Rtx.Kern.Drift
import Rtx.Kern.Stack
import Rtx.Kern.Uart

namespace Rtx

open Lib

variable {k k' k₁ : Kernel} {L L' : Lists} {A : Tid → Prop} {q q₁ : MbxId → List (List UInt8)}
  {tr tr₁ : Traffic} {R : Nat → Nat → Prop} {m : MbxId} {t : Tid} {buf : Buf}

/-! ## 1. Definitions -/

/-- `k_tsk_set_prio(taskId, prio)` looks for a task that has exited in a ready queue with one
    member: `pop_task` runs over the end of it. -/
def Kernel.SeeksExited (k : Kernel) (taskId prio : Nat) : Prop :=
  ∃ t : Tid, t.val = taskId ∧ t ≠ k.current ∧ (k.tcb t).realTime = false ∧
    (k.tcb t).state = .running ∧ ¬ (k.cur.priv = 0 ∧ (k.tcb t).priv = 1) ∧
    prio ∈ [high, medium, low, lowest] ∧ prio ≠ (k.tcb t).prio ∧
    ∃ i : Fin 5, (k.tcb t).prio = order2priority i.val ∧ (k.queue (.ready i)).currentSize = 1

instance Kernel.SeeksExited.decidable (k : Kernel) (taskId prio : Nat) :
    Decidable (k.SeeksExited taskId prio) := by
  unfold Kernel.SeeksExited
  infer_instance

instance Call.IdChecked.decidable (c : Call) : Decidable c.IdChecked := by
  unfold Call.IdChecked
  split <;> infer_instance

/-- The kernel gets through the event. -/
def Kernel.Answerable (k : Kernel) : Event → Prop
  | .call (.tskCreate _ prio stackSize) =>
      k.RefusesTask prio ∨ stackSize ≤ 2 ^ 31 ∧ ¬ k.CreatesNull prio stackSize
  | .call (.tskSetPrio taskId prio) => ¬ k.SeeksExited taskId prio
  | .call c => c.IdChecked
  | .timer tc pc => k.TickSafe tc pc
  | .resume | .overwrite .. => True

instance Kernel.Answerable.decidable (k : Kernel) (e : Event) : Decidable (k.Answerable e) := by
  unfold Kernel.Answerable
  split <;> infer_instance

/-- The kernel gets through the event if and only if `S`. -/
def Kernel.Decides (k : Kernel) (e : Event) (S : Prop) : Prop :=
  Ends (k.exec e) (fun _ => ¬ S) fun _ => S

theorem Kernel.Decides.iff {e : Event} {S : Prop} (h : k.Decides e S) :
    (∃ k' r, k.exec e = .ok (k', r)) ↔ S := by
  unfold Kernel.Decides at h
  cases hx : k.exec e with
  | ok r => exact iff_of_true ⟨r.1, r.2, rfl⟩ (h.of_ok hx)
  | error f =>
      refine iff_of_false ?_ (h.of_error hx)
      rintro ⟨k', r, e⟩
      cases e

/-! ## 2. Queues -/

/-- A task that is no real-time task is queued anywhere. -/
theorem Kernel.pushTail_succeeds (h : (k.data t).realTime = false) (q : QId) :
    Succeeds (k.pushTail t q) := by
  obtain ⟨s, hs⟩ := Tasks.pushTail_returns (s := k.toTasks) (q := q) h
  exact Succeeds.of_ok (bind_of_ok hs)

/-- The running task has a ready queue. -/
theorem Rest.giveWay_succeeds (h : Rest k L) (h0 : k.current ≠ tidNull) : Succeeds k.giveWay := by
  obtain ⟨-, i, -, hi⟩ := h.running h0
  exact Ends.bind_ok hi trivial

theorem Rest.kTskYield_succeeds (h : Rest k L) : Succeeds k.kTskYield := by
  unfold Kernel.kTskYield
  refine Ends.ite (fun _ => trivial) fun hrun => ?_
  refine Ends.ite (fun _ => trivial) fun hrt => ?_
  refine Ends.ite (fun _ => trivial) fun _ => ?_
  apply Ends.ite
  · intro hp
    have h0 : k.current ≠ tidNull := fun e => hp ((h.task k.current).null e).1
    obtain ⟨-, i, -, hi⟩ := h.running h0
    have hrt' : (k.data k.current).realTime = false := Bool.eq_false_iff.mpr hrt
    exact Ends.bind_ok hi ((k.pushTail_succeeds hrt' _).bind fun _ _ => trivial)
  · exact fun _ => trivial

/-! ## 3. `k_tsk_set_prio` -/

/-- The task has exited, and its ready queue has one member. -/
def Kernel.RunsOff (k : Kernel) (t : Tid) (i : Fin 5) : Prop :=
  (k.data t).state = .running ∧ (k.queue (.ready i)).currentSize = 1

theorem Kernel.popTask_tasks {i : QId} {E : Fault → Prop} {P : Tasks Tid QId → Prop}
    (h : Ends (k.toTasks.popTask t i) E fun r => P r.1) :
    Ends (k.popTask t i) E fun k' => ∃ s, k' = { k with toTasks := s } ∧ P s :=
  Ends.bind h fun r hr => ⟨r.1, rfl, hr⟩

/-- What the checks of `k_tsk_set_prio` accept. -/
theorem order_of_mem {prio : Nat} (h : prio ∈ [high, medium, low, lowest]) :
    (∃ i : Fin 5, prio = order2priority i.val) ∧ prio ≠ prioRt := by
  revert prio
  decide

theorem mem_of_order {i : Fin 5} (h : order2priority i.val ≠ prioRt) :
    order2priority i.val ∈ [high, medium, low, lowest] := by
  revert i
  decide

theorem priority2order_order2priority (i : Fin 5) :
    priority2order (order2priority i.val) = i.val := by
  revert i
  decide

section SetPrio

variable (h : Rest k L) {prio : Nat}
include h

/-- `pop_task` of a task that was given its new priority. -/
theorem Rest.takeOut_ends (ht : t ≠ tidNull) (hrt : (k.data t).realTime = false)
    (hp : ∃ i : Fin 5, prio = order2priority i.val) (hct : t ≠ k.current)
    (hs : (k.data t).state = .ready ∨ (k.data t).state = .running) {i : Fin 5}
    (hi : (k.data t).prio = order2priority i.val) :
    Ends ((k.toTasks.modify t fun d => { d with prio }).popTask t (.ready i))
      (fun _ => k.RunsOff t i) fun r => ¬ k.RunsOff t i ∧
        (r.1.data t).realTime = false ∧ r.1.data k.current = k.data k.current := by
  have hsize := (h.placed.rep.chain (.ready i)).size
  have hspec := h.takeOut ht hrt hp hct hs hi
  have hends : Ends ((k.toTasks.modify t fun d => { d with prio }).popTask t (.ready i))
      (fun _ => k.RunsOff t i) fun _ => ¬ k.RunsOff t i := by
    obtain hs | hs := hs
    · -- a ready task is in its queue
      obtain ⟨j, hj, hmem⟩ := h.placed.mem_of_ready ht (fun e => hct e) hs
      have hji : j = i := by
        have e := (readyAt_priority.mp hj).symm.trans hi
        exact le_antisymm ((order2priority_le j i).mp e.le) ((order2priority_le i j).mp e.ge)
      subst hji
      obtain ⟨s, v, h1, -⟩ := h.toSound.popTask hmem (f := fun d => { d with prio }) rfl
        ((h.task t).setPrio ht hp fun e => by rw [hrt] at e; cases e) rfl
      apply Ends.intro_ok h1
      rintro ⟨hrun, -⟩
      rw [hs] at hrun
      cases hrun
    · -- a task that has exited is in none
      have hout := h.placed.not_mem (t := t) (Or.inr (Or.inl hs)) (.ready i)
      obtain ⟨r, hr, -, hlen⟩ | ⟨hr, hlen⟩ :=
        (h.placed.rep.modify t fun d => { d with prio }).popTask_absent hout
      · rw [hr]
        exact fun hoff => hlen (hsize.symm.trans hoff.2)
      · rw [hr]
        exact ⟨hs, hsize.trans hlen⟩
  refine (hends.and hspec).mono (fun _ h1 => h1.1) fun r hr => ⟨hr.1, ?_⟩
  obtain ⟨-, L', X, hout⟩ := hr
  obtain ⟨v, -, hd⟩ := hout.data
  rw [hd, Function.update_self, Function.update_of_ne hct.symm]
  exact ⟨hrt, rfl⟩

theorem Rest.promote_ends (h0 : k.current ≠ tidNull) (ht : t ≠ tidNull)
    (hrt : (k.data t).realTime = false) (hp : ∃ i : Fin 5, prio = order2priority i.val)
    (hct : t ≠ k.current) (hs : (k.data t).state = .ready ∨ (k.data t).state = .running)
    {i : Fin 5} (hi : (k.data t).prio = order2priority i.val) :
    Ends (k.promote t prio) (fun _ => k.RunsOff t i) fun _ => ¬ k.RunsOff t i := by
  obtain ⟨-, c, -, hc⟩ := h.running h0
  unfold Kernel.promote
  apply Ends.bind_ok (readyAt_priority.mpr hi)
  apply Ends.bind (Kernel.popTask_tasks (P := fun s => ¬ k.RunsOff t i ∧
    (s.data t).realTime = false ∧ s.data k.current = k.data k.current)
    (h.takeOut_ends ht hrt hp hct hs hi))
  rintro k₂ ⟨s, rfl, hoff, -, hcur⟩
  have hc' : readyAt (priority2order (s.data k.current).prio) = .ok (.ready c) := by
    rw [hcur]
    exact hc
  exact Ends.bind_ok hc' hoff

theorem Rest.requeue_ends (ht : t ≠ tidNull) (hrt : (k.data t).realTime = false)
    (hp : ∃ i : Fin 5, prio = order2priority i.val) (hct : t ≠ k.current)
    (hs : (k.data t).state = .ready ∨ (k.data t).state = .running)
    {i : Fin 5} (hi : (k.data t).prio = order2priority i.val) :
    Ends (k.requeue t prio) (fun _ => k.RunsOff t i) fun _ => ¬ k.RunsOff t i := by
  obtain ⟨j, hj⟩ := id hp
  unfold Kernel.requeue
  apply Ends.bind_ok (readyAt_priority.mpr hi)
  apply Ends.bind (Kernel.popTask_tasks (P := fun s => ¬ k.RunsOff t i ∧
    (s.data t).realTime = false ∧ s.data k.current = k.data k.current)
    (h.takeOut_ends ht hrt hp hct hs hi))
  rintro k₂ ⟨s, rfl, hoff, hrt', -⟩
  apply Ends.bind_ok (readyAt_priority.mpr hj)
  exact (Kernel.pushTail_succeeds (k := { k.setPrio t prio with toTasks := s }) hrt' _).mono
    (fun _ hf => hf.elim) fun _ _ => hoff

theorem Rest.demoteSelf_succeeds (h0 : k.current ≠ tidNull)
    (hrt : (k.data k.current).realTime = false) (hp : ∃ i : Fin 5, prio = order2priority i.val) :
    Succeeds (k.demoteSelf prio) := by
  obtain ⟨p, hpi⟩ := id hp
  have hset := h.setPrio h0 hp (fun e => by rw [hrt] at e; cases e)
    (fun e => by rw [h.current h0] at e; cases e)
  have hd := k.data_modifyTcb k.current fun d => { d with prio }
  unfold Kernel.demoteSelf
  dsimp only
  obtain ⟨hf, hL⟩ | ⟨i, u, l, hf, hL, hh, -⟩ := h.placed.firstReady
  · -- the null task is below every priority
    have hhigh : k.highestTask = tidNull := by
      unfold Kernel.highestTask
      rw [hf]
    apply Ends.ite
    · intro hle
      have hnull : ((k.setPrio k.current prio).data tidNull).prio = prioNull := by
        refine (congrArg TcbData.prio (congrFun hd tidNull)).trans ?_
        rw [Function.update_of_ne (Ne.symm h0)]
        exact ((h.task tidNull).null rfl).1
      rw [hhigh] at hle
      exact absurd (hnull.symm.trans_le hle) (not_le.mpr (hpi ▸ order2priority_lt_null p))
    · exact fun _ => trivial
  · have hmem : u ∈ L (.ready i) := hL ▸ List.mem_cons_self
    have huc : u ≠ k.current := fun e => (h.placed.not_held hmem).1 e
    have hhigh : k.highestTask = u := by
      unfold Kernel.highestTask
      rw [hf]
      simp only [hh, Option.getD_some]
    rw [hhigh]
    apply Ends.ite
    · intro _
      have hui := readyAt_priority.mp ((h.placed.of_mem hmem).2 i rfl)
      have hdu := (congrFun hd u).trans (Function.update_of_ne huc _ _)
      have hiq : readyAt (priority2order ((k.setPrio k.current prio).data u).prio) =
          .ok (.ready i) := readyAt_priority.mpr ((congrArg TcbData.prio hdu).trans hui)
      apply Ends.bind_ok hiq
      apply Ends.bind_ok (readyAt_priority.mpr hpi)
      -- the head of the highest queue is not the caller
      obtain ⟨-, h4⟩ := (hset.toSound.setCurrent u).popHead hL
      have hdc := (congrFun h4 k.current).trans (Function.update_of_ne huc.symm _ _)
      have hdc' := (congrFun hd k.current).trans (Function.update_self _ _ _)
      have hrt' : ((((k.setPrio k.current prio).setCurrent u).popHead (.ready i)).data
          k.current).realTime = false :=
        (congrArg TcbData.realTime hdc).trans ((congrArg TcbData.realTime hdc').trans hrt)
      exact (Kernel.pushTail_succeeds hrt' _).bind fun _ _ => trivial
    · exact fun _ => trivial

/-- What `k_tsk_set_prio` does to `t` when its arguments are accepted. -/
theorem Rest.changePrio_ends (h0 : k.current ≠ tidNull) (ha : PrioAccepted k t prio)
    {i : Fin 5} (hi : (k.data t).prio = order2priority i.val) :
    Ends (k.changePrio t t.val prio)
      (fun _ => t ≠ k.current ∧ (k.data t).realTime = false ∧ prio ≠ (k.data t).prio ∧
        k.RunsOff t i)
      fun _ => ¬ (t ≠ k.current ∧ (k.data t).realTime = false ∧ prio ≠ (k.data t).prio ∧
        k.RunsOff t i) := by
  have htid : k.cur.tid = t.val ↔ k.current = t := by
    have e := (h.task k.current).tid (by rw [h.current h0]; simp)
    rw [show k.cur.tid = k.current.val from e]
    exact Fin.val_inj
  unfold Kernel.changePrio
  by_cases hb : (k.tcb t).state = .blkRecv ∨ (k.tcb t).state = .blkSend
  · have hoff : ¬ (t ≠ k.current ∧ (k.data t).realTime = false ∧ prio ≠ (k.data t).prio ∧
        k.RunsOff t i) := by
      rintro ⟨-, -, -, hrun, -⟩
      rw [show (k.tcb t).state = .running from hrun] at hb
      simp at hb
    have hdt := (congrFun (k.data_modifyTcb t fun d => { d with prio }) t).trans
      (Function.update_self _ _ _)
    simp only [hb, if_true]
    refine Ends.ite (fun _ => hoff) fun _ => ?_
    exact Ends.ite (fun _ => hoff) fun e => absurd (congrArg TcbData.prio hdt) e
  · simp only [hb, if_false]
    apply Ends.ite
    · rintro hrt ⟨-, hrt', -⟩
      rw [show (k.tcb t).realTime = false from hrt'] at hrt
      cases hrt
    intro hrt
    have hrtf : (k.data t).realTime = false := Bool.eq_false_iff.mpr hrt
    have hs := (h.task t).movable ha.state hb hrtf
    apply Ends.ite
    · rintro e ⟨-, -, hne, -⟩
      exact hne e.symm
    intro hne
    have hrest : ∀ {x : Except Fault Kernel}, t ≠ k.current →
        Ends x (fun _ => k.RunsOff t i) (fun _ => ¬ k.RunsOff t i) →
        Ends x (fun _ => t ≠ k.current ∧ (k.data t).realTime = false ∧ prio ≠ (k.data t).prio ∧
          k.RunsOff t i) fun _ => ¬ (t ≠ k.current ∧ (k.data t).realTime = false ∧
            prio ≠ (k.data t).prio ∧ k.RunsOff t i) := fun hct hx =>
      hx.mono (fun _ ho => ⟨hct, hrtf, fun e => hne e.symm, ho⟩) fun _ ho h4 => ho h4.2.2.2
    apply Ends.ite
    · rintro ⟨-, hid⟩
      have hct : t ≠ k.current := fun e => hid (htid.mpr e.symm)
      exact hrest hct (h.promote_ends h0 ha.ne_null hrtf ha.queue hct hs hi)
    intro _
    apply Ends.ite
    · intro hid
      have hct := htid.mp hid
      subst hct
      apply Ends.ite
      · exact fun _ => (h.demoteSelf_succeeds h0 hrtf ha.queue).mono (fun _ hf => hf.elim)
          fun _ _ h4 => h4.1 rfl
      · exact fun _ h4 => h4.1 rfl
    · intro hid
      have hct : t ≠ k.current := fun e => hid (htid.mpr e.symm)
      exact hrest hct (h.requeue_ends ha.ne_null hrtf ha.queue hct hs hi)

/-- The task that `k_tsk_set_prio` looks for in vain passes all its checks. -/
theorem Kernel.SeeksExited.accepted {taskId : Nat} (hx : k.SeeksExited taskId prio) :
    ∃ t : Tid, t.val = taskId ∧ PrioAccepted k t prio ∧ t ≠ k.current ∧
      (k.data t).realTime = false ∧ prio ≠ (k.data t).prio ∧
      ∃ i : Fin 5, (k.data t).prio = order2priority i.val ∧ k.RunsOff t i := by
  obtain ⟨t, hid, hct, hrt, hrun, hpriv, hmem, hne, i, hi, hone⟩ := hx
  obtain ⟨hq, hrt'⟩ := order_of_mem hmem
  have hbelow : (k.data t).prio ≠ prioNull := fun e =>
    absurd (hi.symm.trans e) (order2priority_lt_null i).ne
  refine ⟨t, hid, ⟨fun e => hbelow ((h.task t).null e).1, hbelow, hq, fun e => ?_, hpriv,
    fun e => ?_, fun _ => hrt'⟩, hct, hrt, hne, i, hi, hrun, hone⟩
  · cases (show (k.data t).state = .running from hrun).symm.trans e
  · cases hrt.symm.trans e

/-- **`k_tsk_set_prio` gets through** unless it looks for a task that has exited. -/
theorem Rest.kTskSetPrio_ends (h0 : k.current ≠ tidNull) (taskId : Nat) :
    Ends (k.kTskSetPrio taskId prio) (fun _ => k.SeeksExited taskId prio)
      fun _ => ¬ k.SeeksExited taskId prio := by
  unfold Kernel.kTskSetPrio
  apply Ends.ite
  · intro hid hx
    obtain ⟨t, rfl, ha, -⟩ := hx.accepted h
    obtain ⟨j, rfl⟩ := ha.queue
    have hlt := t.isLt
    have hord := priority2order_order2priority j
    unfold maxTasks at hid
    omega
  intro hid
  obtain ⟨hid, hord⟩ := not_or.mp hid
  have hlt : taskId < 16 := by
    unfold maxTasks at hid
    omega
  have hacc : k.SeeksExited taskId prio → PrioAccepted k ⟨taskId, hlt⟩ prio := fun hx => by
    obtain ⟨t, rfl, ha, -⟩ := hx.accepted h
    exact ha
  refine Ends.bind_ok (a := (⟨taskId, hlt⟩ : Tid)) (by unfold tcbAt; rw [dif_pos hlt]) ?_
  refine Ends.ite (fun e hx => ?_) fun hnull => ?_
  · obtain ⟨j, hj⟩ := (hacc hx).queue
    exact e.elim (hacc hx).below fun e => absurd (hj.symm.trans e) (order2priority_lt_null j).ne
  refine Ends.ite (fun e hx => ?_) fun hperm => ?_
  · obtain e | ⟨-, e⟩ | ⟨e, -⟩ | e := e
    · exact (hacc hx).priv e
    · exact (hacc hx).ne_null (Fin.ext e)
    · exact hnull (Or.inr e)
    · exact (hacc hx).state e
  refine Ends.ite (fun e hx => e.2 ((hacc hx).realTime e.1)) fun hrt => ?_
  refine Ends.ite (fun e hx => (hacc hx).other e.1 e.2) fun hrt' => ?_
  -- the arguments are accepted
  obtain ⟨hpriv, hperm⟩ := not_or.mp hperm
  obtain ⟨hzero, hperm⟩ := not_or.mp hperm
  have hp : ∃ i : Fin 5, prio = order2priority i.val := by
    rcases priority2order_cases prio with e | e | e
    · rw [e] at hord
      simp at hord
    · exact absurd (Or.inr e) hnull
    · exact e
  have ha : PrioAccepted k ⟨taskId, hlt⟩ prio := {
    ne_null := fun e => hzero ⟨fun e => hnull (Or.inr e), congrArg Fin.val e⟩
    below := (not_or.mp hnull).1
    queue := hp
    state := fun e => hperm (Or.inr e)
    priv := hpriv
    realTime := fun e => not_not.mp fun hne => hrt ⟨e, hne⟩
    other := fun e hr => hrt' ⟨e, hr⟩ }
  obtain ⟨i, hi⟩ := (h.task ⟨taskId, hlt⟩).prio ha.ne_null
  refine Ends.bind ((h.changePrio_ends h0 ha hi).mono (fun _ hoff => ?_) fun _ hoff hx => ?_)
    fun _ hx => hx
  · obtain ⟨hct, hrtf, hne, hrun, hone⟩ := hoff
    obtain ⟨j, hj⟩ := hp
    have hmem : prio ∈ [high, medium, low, lowest] := hj ▸ mem_of_order (hj ▸ ha.other hrtf)
    exact ⟨_, rfl, hct, hrtf, hrun, hpriv, hmem, hne, i, hi, hone⟩
  · obtain ⟨t, rfl, -, hct, hrtf, hne, j, hj, hrun⟩ := hx.accepted h
    have hij : j = i := by
      have e := hj.symm.trans hi
      exact le_antisymm ((order2priority_le j i).mp e.le) ((order2priority_le i j).mp e.ge)
    exact hoff ⟨hct, hrtf, hne, hij ▸ hrun⟩

end SetPrio

/-! ## 4. The mailbox calls -/

/-- The owner of a mailbox is woken. -/
theorem Rest.wake_succeeds (h : Rest k L) {preempt : Bool}
    (h0 : preempt = true → k.current ≠ tidNull) (t : Tid) : Succeeds (k.wake t preempt) := by
  unfold Kernel.wake
  apply Ends.ite
  · intro hb
    obtain ⟨ht0, hc, -⟩ := h.receiver hb
    obtain ⟨i, hi⟩ := (h.task t).prio ht0
    obtain ⟨s, h1, -, h2⟩ := h.ready hb (readyAt_priority.mpr hi)
    apply Ends.bind_ok (readyAt_priority.mpr hi)
    apply Ends.bind_ok h1
    apply Ends.ite
    · rintro ⟨-, hpre⟩
      obtain ⟨-, c, -, hcq⟩ := h.running (h0 hpre)
      have hdc := (congrFun h2 k.current).trans (Function.update_of_ne hc.symm _ _)
      have hcq' : readyAt (priority2order
          ((({ k with toTasks := s } : Kernel).setTaskState t .ready).data k.current).prio) =
          .ok (.ready c) := (congrArg (readyAt ∘ priority2order ∘ TcbData.prio) hdc).trans hcq
      exact Ends.bind_ok hcq' trivial
    · exact fun _ => trivial
  · exact fun _ => trivial

section Send

variable (h : Channel R k L q tr)
include h

/-- A message that fits is put in the ring, and its receiver is woken. -/
theorem Channel.deliver_succeeds {receiverTid : Nat} {preempt : Bool}
    (h0 : preempt = true → k.current ≠ tidNull) (hacc : Accepted k receiverTid buf m)
    (hadm : k.admits m buf = true) : Succeeds (k.deliver m buf preempt) := by
  obtain ⟨hfit, -⟩ := h.rest.admits_iff.mp hadm
  obtain ⟨heap, hR⟩ := h.rings
  have hrep := hR.rep m hacc.active
  have hpos : 0 < buf.length := Nat.lt_of_lt_of_le (by decide) hacc.header
  obtain ⟨bytes, mb, h1, -⟩ := hrep.push hacc.header ((hrep.canFit_iff hpos).mp hfit)
  have hk := Kernel.pushBuffer_of_ok h1
  obtain ⟨h2, -, h3, -⟩ := h.rest.pushBuffer hk
  unfold Kernel.deliver
  apply Ends.bind_ok hk
  cases m with
  | uart => exact trivial
  | task t => exact h2.wake_succeeds (h3 ▸ h0) t

omit h in
/-- A sender that is no real-time task waits. -/
theorem Kernel.blockSend_succeeds (hrt : (k.data k.current).realTime = false) (m : MbxId)
    (buf : Buf) : Succeeds (k.blockSend m buf) := by
  have hd := (congrFun (k.data_modifyTcb k.current fun d => senderData d buf) k.current).trans
    (Function.update_self _ _ _)
  unfold Kernel.blockSend
  exact (Kernel.pushTail_succeeds ((congrArg TcbData.realTime hd).trans hrt) _).bind
    fun _ _ => trivial

/-- **`k_send_msg` gets through** if it takes the id of a task or of the UART. -/
theorem Channel.kSendMsg_ends (h0 : k.current ≠ tidNull) (receiverTid : Nat) (buf : Buf)
    (ht : k.cur.realTime = true → k.sendBlocks receiverTid buf = false) :
    Ends (k.kSendMsg receiverTid buf) (fun _ => ¬ (receiverTid < 16 ∨ receiverTid = tidUart))
      fun _ => receiverTid < 16 ∨ receiverTid = tidUart := by
  have hcheck := k.checkSend_ends receiverTid buf
  unfold Kernel.kSendMsg
  cases hc : k.checkSend receiverTid buf with
  | error e => exact (hcheck.of_error hc).2
  | ok r =>
      have hid := hcheck.of_ok hc
      cases r with
      | error e => exact hid
      | ok m =>
          have hacc := (k.checkSend_spec receiverTid buf).of_ok hc m rfl
          apply Ends.ite
          · intro hadm
            exact (h.deliver_succeeds (fun _ => h0) hacc hadm).bind fun _ _ => hid
          · intro hadm
            have hrt : (k.data k.current).realTime = false := by
              rw [Bool.eq_false_iff]
              intro e
              have hnot := ht e
              unfold Kernel.sendBlocks at hnot
              simp [hc, hadm] at hnot
            exact (Kernel.blockSend_succeeds hrt m buf).bind fun _ _ => hid

/-- **`k_send_msg_nb` gets through**, likewise. -/
theorem Channel.kSendMsgNb_ends (h0 : k.current ≠ tidNull) (receiverTid : Nat) (buf : Buf) :
    Ends (k.kSendMsgNb receiverTid buf) (fun _ => ¬ (receiverTid < 16 ∨ receiverTid = tidUart))
      fun _ => receiverTid < 16 ∨ receiverTid = tidUart := by
  have hcheck := k.checkSend_ends receiverTid buf
  unfold Kernel.kSendMsgNb
  cases hc : k.checkSend receiverTid buf with
  | error e => exact (hcheck.of_error hc).2
  | ok r =>
      have hid := hcheck.of_ok hc
      cases r with
      | error e => exact hid
      | ok m =>
          have hacc := (k.checkSend_spec receiverTid buf).of_ok hc m rfl
          apply Ends.ite
          · intro hadm
            exact (h.deliver_succeeds (fun _ => h0) hacc hadm).bind fun _ _ => hid
          · exact fun _ => hid

end Send

section Recv

variable (h : Channel R k L q tr) (h0 : k.current ≠ tidNull) {x : List UInt8}
  {l : List (List UInt8)} {len : Nat}
include h h0

/-- What follows the copy in a receive: the senders that wait are released, and the receiver gives
    way. -/
theorem Channel.released_succeeds (hk : Flow R k₁ L' q₁ tr₁) (hf : ∀ m', m' ≠ m → Full k₁ L' q₁ m')
    (hc : k₁.current = k.current) (hd : k₁.data = k.data) (hm : ∀ u, m = .task u → u = k.current) :
    Ends (k₁.release m) (fun _ => False) fun k₂ => k₂.uartMailboxCollect = false ∧
      Succeeds k₂.giveWay := by
  have hrecv : ∀ u, m = .task u → (k₁.data u).state ≠ .blkRecv := fun u e hb => by
    rw [hm u e, hd, h.rest.current h0] at hb
    cases hb
  obtain ⟨k₂, h1⟩ := hk.releaseLoop_ok hrecv (k₁.queue (.waiting m)).currentSize
  obtain ⟨L₂, q₂, n, h2, -, h3, -⟩ := (hk.release hf hrecv).of_ok h1
  exact Ends.intro_ok h1 ⟨h2.rest.uart, h2.rest.giveWay_succeeds (h3.trans hc ▸ h0)⟩

/-- A receive that finds a message its buffer has room for. -/
theorem Channel.receive_succeeds (hq : q (.task k.current) = x :: l)
    (hp : k.pend k.current = none) (hlen : x.length ≤ len) (buf : Buf) :
    ∃ k₁, k.popBuffer (.task k.current) buf len = .ok (k₁, buf.put x, 1) ∧
      Ends (k₁.release (.task k.current)) (fun _ => False) fun k₂ =>
        k₂.uartMailboxCollect = false ∧ Succeeds k₂.giveWay := by
  obtain ⟨k₁, h1, -, h2, h3⟩ := h.toFlow.take hq (fun _ e => MbxId.task.inj e ▸ hp) hlen buf
  obtain ⟨-, hs, hcur, -⟩ := h.rest.popBuffer h1
  have hd : k₁.data = k.data := congrArg Tasks.data hs
  refine ⟨k₁, h1, h.released_succeeds h0 h3 (fun m' hne t l' buf' hL hb => ?_) hcur hd
    fun u e => (MbxId.task.inj e).symm⟩
  rw [hd] at hb
  rw [(h2 m').2, Function.update_of_ne hne]
  exact h.full m' t l' buf' hL hb

/-- **`k_recv_msg` gets through.** -/
theorem Channel.kRecvMsg_succeeds (hp : k.pend k.current = none) {b : Option Buf}
    (hrt : k.cur.realTime = true → k.receives b len = false) : Succeeds (k.kRecvMsg b len) := by
  unfold Kernel.kRecvMsg
  cases b with
  | none => exact trivial
  | some buf =>
      apply Ends.bind_ok (h.rest.recvMbx h0)
      apply Ends.ite
      · exact fun _ => trivial
      intro hact
      have hact' := Bool.eq_true_of_not_eq_false hact
      obtain ⟨heap, hR⟩ := h.rings
      cases hq : q (.task k.current) with
      | nil =>
          -- the mailbox is empty, and the receiver waits
          have hpop := hR.pop_empty hact' hq buf len
          have hrt' : (k.data k.current).realTime = false := by
            rw [Bool.eq_false_iff]
            intro e
            have hnot := hrt e
            unfold Kernel.receives at hnot
            simp [hpop, hact'] at hnot
          obtain ⟨s, t, -, hrun, -⟩ := h.rest.blockRecv h0 hrt' ⟨.task k.current, buf, len⟩
          apply Ends.bind_ok hpop
          apply Ends.ite (fun e => absurd e (by decide))
          intro _
          refine Ends.ite (fun _ => ?_) fun hne => absurd rfl hne
          simp only [hrun]
          exact trivial
      | cons x l =>
          by_cases hx : len < x.length
          · obtain ⟨buf', hpop⟩ := hR.pop_short hact' hq hx buf
            apply Ends.bind_ok hpop
            exact Ends.ite (fun _ => trivial) fun hne => absurd rfl hne
          · obtain ⟨k₁, hpop, hrest⟩ := h.receive_succeeds h0 hq hp (not_lt.mp hx) buf
            apply Ends.bind_ok hpop
            refine Ends.ite (fun e => absurd e (by decide)) fun _ => ?_
            refine Ends.ite (fun e => absurd e (by decide)) fun _ => ?_
            exact Ends.bind hrest fun k₂ hk₂ => hk₂.2.bind fun _ _ => trivial

/-- **`k_recv_msg_nb` gets through.** -/
theorem Channel.kRecvMsgNb_succeeds (hp : k.pend k.current = none) (b : Option Buf) :
    Succeeds (k.kRecvMsgNb b len) := by
  unfold Kernel.kRecvMsgNb
  cases b with
  | none => exact trivial
  | some buf =>
      apply Ends.bind_ok (h.rest.recvMbx h0)
      apply Ends.ite
      · exact fun _ => trivial
      intro hact
      apply Ends.ite
      · exact fun _ => trivial
      intro hsize
      have hact' := Bool.eq_true_of_not_eq_false hact
      obtain ⟨heap, hR⟩ := h.rings
      cases hq : q (.task k.current) with
      | nil => exact absurd ((hR.rep _ hact').size_eq_zero.mpr hq) hsize
      | cons x l =>
          by_cases hx : len < x.length
          · obtain ⟨buf', hpop⟩ := hR.pop_short hact' hq hx buf
            apply Ends.bind_ok hpop
            exact Ends.ite (fun _ => trivial) fun hne => absurd rfl hne
          · obtain ⟨k₁, hpop, hrest⟩ := h.receive_succeeds h0 hq hp (not_lt.mp hx) buf
            apply Ends.bind_ok hpop
            refine Ends.ite (fun e => absurd e (by decide)) fun _ => ?_
            refine Ends.bind hrest fun k₂ hk₂ => ?_
            refine Ends.ite (fun _ => trivial) fun _ => ?_
            exact hk₂.2.bind fun _ _ => trivial

omit h0 in
/-- **A `k_recv_msg` that goes on gets through**, whether its buffer has room for the message or
    not. -/
theorem Channel.resumeRecv_succeeds {p : Pending} (hp : k.pend k.current = some p) :
    Succeeds (k.resumeRecv p) := by
  obtain ⟨hm, h0, -, -, x, l, hq⟩ := h.resumes hp
  have h' := h.resumed (t := k.current)
  have hrest : Succeeds (Kernel.recvRest { k with pend := Function.update k.pend k.current none }
      (.task k.current) p.buf p.len) := by
    by_cases hx : p.len < x.length
    · obtain ⟨heap, hR⟩ := h'.rings
      have hact := h.active_of_mem (hq ▸ List.mem_cons_self : x ∈ q (.task k.current))
      obtain ⟨buf', hpop⟩ := hR.pop_short hact hq hx p.buf
      apply Ends.bind_ok hpop
      refine Ends.bind (h'.released_succeeds h0 h'.toFlow (m := .task k.current)
        (fun m' _ => h'.full m') rfl rfl fun u e => (MbxId.task.inj e).symm) fun k₂ hk₂ => ?_
      exact hk₂.2.bind fun _ _ => trivial
    · obtain ⟨k₁, hpop, hrest⟩ := h'.receive_succeeds h0 hq (Function.update_self _ _ _)
        (not_lt.mp hx) p.buf
      apply Ends.bind_ok hpop
      exact Ends.bind hrest fun k₂ hk₂ => hk₂.2.bind fun _ _ => trivial
  unfold Kernel.resumeRecv
  rw [hm]
  exact hrest.bind fun _ _ => trivial

end Recv

/-! ## 5. The other calls -/

section Create

/-- **`k_mbx_create` gets through.** -/
theorem Channel.kMbxCreate_succeeds (h : Channel R k L q tr) (h0 : k.current ≠ tidNull)
    (size : Nat) : Succeeds (k.kMbxCreate size) := by
  have htid : k.cur.tid = k.current.val :=
    (h.rest.task k.current).tid (by rw [h.rest.current h0]; simp)
  obtain ⟨heap, hR⟩ := h.rings
  obtain ⟨m, ptr, hal, -⟩ := mpoolAlloc_heap .iram2 hR.inv hR.pool size
  unfold Kernel.kMbxCreate
  rw [htid]
  refine Ends.bind_ok (a := .task k.current) (by unfold mbxAt; rw [dif_pos k.current.isLt]) ?_
  refine Ends.ite (fun _ => trivial) fun _ => Ends.ite (fun _ => trivial) fun _ => ?_
  apply Ends.bind_ok hal
  cases ptr with
  | none => exact trivial
  | some a => exact trivial

/-- **`k_tsk_create` gets through** if it refuses the task, or finds the size of the stack and
    creates no task with PRIO_NULL. -/
theorem Indexed.kTskCreate_decides (hA : Indexed A k) (hS : Stocked k) (h0 : k.current ≠ tidNull)
    (taskEntry prio stackSize : Nat) : Ends (k.kTskCreate taskEntry prio stackSize)
      (fun _ => ¬ (k.RefusesTask prio ∨ stackSize ≤ 2 ^ 31 ∧ ¬ k.CreatesNull prio stackSize))
      fun _ => k.RefusesTask prio ∨ stackSize ≤ 2 ^ 31 ∧ ¬ k.CreatesNull prio stackSize := by
  by_cases hok : k.RefusesTask prio
  · obtain ⟨k', r, task, hx, -⟩ := hok.returns taskEntry stackSize
    exact Ends.intro_ok hx (Or.inl hok)
  by_cases hs : stackSize ≤ 2 ^ 31
  · by_cases hn : k.CreatesNull prio stackSize
    · refine (hA.kTskCreate h0 taskEntry prio stackSize).mono (fun _ _ => ?_)
        fun _ hr => absurd hn hr.1
      exact not_or.mpr ⟨hok, fun hc => hc.2 hn⟩
    · obtain ⟨k', r, task, hx, -⟩ := hA.kTskCreate_returns hS h0 taskEntry hs hn
      exact Ends.intro_ok hx (Or.inr ⟨hs, hn⟩)
  · rw [k.kTskCreate_hangs taskEntry hok (not_le.mp hs)]
    exact not_or.mpr ⟨hok, fun hc => hs hc.1⟩

end Create

section RealTime

variable (h : Rest k L)
include h

/-- **`k_rt_tsk_set` gets through.** -/
theorem Rest.kRtTskSet_succeeds (tv : Timeval) : Succeeds (k.kRtTskSet tv) := by
  cases hrt : k.cur.realTime with
  | true =>
      unfold Kernel.kRtTskSet
      rw [if_pos hrt]
      exact trivial
  | false =>
      obtain ⟨k', hk⟩ : ∃ k', k.kRtTskSet tv = .ok (k', rtxOk) :=
        kRtTskSet_returns (h.placed.rep.chain (.ready 0)) (h.current_out _) hrt
      exact Succeeds.of_ok hk

/-- **`k_rt_tsk_susp` gets through.** -/
theorem Rest.kRtTskSusp_succeeds : Succeeds k.kRtTskSusp := by
  cases hrt : k.cur.realTime with
  | true =>
      obtain ⟨r, hr⟩ := kRtTskSusp_returns (h.placed.rep.chain .suspend) (h.current_out _) hrt
        ((h.task k.current).realTime hrt)
      exact Succeeds.of_ok hr
  | false =>
      unfold Kernel.kRtTskSusp
      rw [if_pos hrt]
      exact trivial

end RealTime

/-! ## 6. One event -/

section Exec

variable (hC : Channel (fun _ _ => True) k L q tr) (hA : Indexed A k) (hS : Stocked k) (hb : k.Kept)
include hC hA hS hb

/-- **One event**: the kernel gets through it if and only if it is answerable. -/
theorem Channel.decides {e : Event} (hl : k.Legal e) (ht : k.Tame e) (hf : k.FreesCleanly e) :
    k.Decides e (k.Answerable e) := by
  obtain ⟨h, hb⟩ := hb
  unfold Kernel.Decides
  cases e with
  | resume =>
      unfold Kernel.exec
      cases hp : k.pend k.current with
      | none => exact absurd hp hl
      | some p => exact (hC.resumeRecv_succeeds hp).bind fun _ _ => trivial
  | timer tc pc =>
      refine Ends.bind ((hC.rest.timer0IrqHandler tc pc).mono (fun _ => id) fun _ hr => hr.1)
        fun _ hr => hr
  | overwrite t buf => exact trivial
  | call c =>
      obtain ⟨hp, hnull⟩ := hl
      by_cases hy : c = .tskYield
      · subst hy
        exact hC.rest.kTskYield_succeeds.bind fun _ _ => trivial
      have h0 : k.current ≠ tidNull := fun e => hy (hnull e)
      cases c with
      | memAlloc size =>
          have hx := hb.mpoolAlloc size
          exact Ends.bind (hx.mono (fun _ he => he.elim) fun _ => id) fun _ _ => trivial
      | memDealloc ptr =>
          have hx := hb.mpoolDealloc hf
          exact Ends.bind (hx.mono (fun _ he => he.elim) fun _ => id) fun _ _ => trivial
      | tskCreate taskEntry prio stackSize =>
          exact Ends.bind (hA.kTskCreate_decides hS h0 taskEntry prio stackSize) fun _ ha => ha
      | tskExit => exact trivial
      | tskYield => exact absurd rfl hy
      | tskSetPrio taskId prio =>
          exact Ends.bind ((hC.rest.kTskSetPrio_ends h0 taskId).mono (fun _ => not_not_intro)
            fun _ => id) fun _ ha => ha
      | tskGet tid buffer msp psp =>
          have hx := k.kTskGet_ends tid buffer msp psp
          exact Ends.bind (hx.mono (fun _ hf => hf.elim) fun _ => id) fun _ _ => trivial
      | tskGettid => exact trivial
      | tskLs buf count => exact trivial
      | mbxCreate size => exact (hC.kMbxCreate_succeeds h0 size).bind fun _ _ => trivial
      | mbxSend receiverTid buf =>
          exact Ends.bind (hC.kSendMsg_ends h0 receiverTid buf ht) fun _ ha => ha
      | mbxSendNb receiverTid buf =>
          exact Ends.bind (hC.kSendMsgNb_ends h0 receiverTid buf) fun _ ha => ha
      | mbxRecv buf len => exact (hC.kRecvMsg_succeeds h0 hp ht).bind fun _ _ => trivial
      | mbxRecvNb buf len => exact (hC.kRecvMsgNb_succeeds h0 hp buf).bind fun _ _ => trivial
      | mbxLs buf count => exact trivial
      | mbxGet tid => exact Ends.bind ((k.kMbxGet_ends tid).mono (fun _ he => he.2)
          fun _ hr => hr.2) fun _ ha => ha
      | rtTskSet tv => exact (hC.rest.kRtTskSet_succeeds tv).bind fun _ _ => trivial
      | rtTskSusp => exact hC.rest.kRtTskSusp_succeeds.bind fun _ _ => trivial
      | rtTskGet tid buffer => exact Ends.bind ((k.kRtTskGet_ends tid buffer).mono
          (fun _ he => he.2) fun _ hr => hr.2.1) fun _ ha => ha

end Exec

/-! ## 7. Runs -/

/-- The condition on the events of a run: the tasks free what is theirs and leave the buffers of
    blocked senders alone, and the real-time tasks do not block. -/
def Kernel.Regular (k : Kernel) (e : Event) : Prop :=
  k.Legal e ∧ k.Tame e ∧ e.overwrites = false ∧ k.FreesCleanly e

instance Kernel.Regular.decidable (k : Kernel) (e : Event) : Decidable (k.Regular e) :=
  inferInstanceAs (Decidable (_ ∧ _ ∧ _ ∧ _))

/-- The invariant of these runs. -/
structure Running (k : Kernel) : Prop where
  indexed : ∃ A, Indexed A k
  stocked : Stocked k
  carried : ∃ tr, Carried (fun _ _ => True) k tr
  kept : k.Kept

section Run

variable {e : Event} (hs : Running k) (hr : k.Regular e)
include hs hr

theorem Running.decides : k.Decides e (k.Answerable e) := by
  obtain ⟨A, hA⟩ := hs.indexed
  obtain ⟨tr, L, q, hC⟩ := hs.carried
  exact hC.decides hA hs.stocked hs.kept hr.1 hr.2.1 hr.2.2.2

/-- **The step lemma.** -/
theorem Running.step (ha : k.Answerable e) : ∃ k', k.step e = some k' ∧ Running k' := by
  obtain ⟨k', r, hx⟩ := (hs.decides hr).iff.mpr ha
  obtain ⟨tr, L, q, hC⟩ := hs.carried
  have hstep := Kernel.step_eq_some.mpr ⟨r, hx⟩
  exact ⟨k', hstep, {
    indexed := Indexed.step hs.indexed hr.1 hstep
    stocked := (hs.stocked.exec e).of_ok hx
    carried := (hC.exec_tame hr.1 hr.2.1 hr.2.2.1).of_ok hx
    kept := ((hs.kept.exec hr.2.2.2).of_ok hx).2 }⟩

end Run

end Rtx
