/-
  File:      Rtx/Kern/Edf.lean
  Subject:   Earliest deadline first: the order of the real-time tasks.

  `Edf f c k`: the keys of the tasks are `f`, every link between two real-time tasks leads to a
  deadline that is not earlier, and no task at the head of `ready_queue[RT_INDEX]` has a deadline
  before `c`. Between two calls `c` is the deadline of the running task.

  Most operations handle one task that is not a real-time task; they keep `Edf` whatever the
  queues hold. The four places where a real-time task moves (`k_rt_tsk_set`, `k_rt_tsk_susp` and
  two in the timer interrupt) need the lists.
-/
import Rtx.Kern.Order
import Rtx.Kern.Effect

namespace Rtx

open Lib

/-! ## 1. The order -/

/-- What the order of the tasks depends on: the priority, and the deadline of a real-time task. -/
structure Key where
  prio : Nat
  deadline : Option Nat

def TcbData.key (d : TcbData) : Key := ⟨d.prio, if d.realTime then some d.tskDeadline else none⟩

/-- Of two deadlines the second is not before the first; a task that has none has no place. -/
def Before (a b : Option Nat) : Prop := ∀ x ∈ a, ∀ y ∈ b, x ≤ y

theorem Before.refl (a : Option Nat) : Before a a := fun x hx y hy => by
  rw [Option.mem_def] at hx hy
  exact (Option.some.inj (hx.symm.trans hy)).le

theorem Before.none_left (a : Option Nat) : Before none a := fun _ h => (by cases h)

theorem Before.none_right (a : Option Nat) : Before a none := fun _ _ _ h => (by cases h)

/-- **The order along the links**, the task that runs, or is about to, having the deadline `c`. -/
def Edf (f : Tid → Key) (c : Option Nat) (k : Kernel) : Prop :=
  k.toTasks.Arranged (fun t u => Before (f t).deadline (f u).deadline)
    (fun q u => q = .ready 0 → Before c (f u).deadline) fun t d => d.key = f t

variable {k k' : Kernel} {L L' : Lists} {f : Tid → Key} {c : Option Nat} {t u : Tid} {q : QId}
  {H X : Set Tid} {A : Tid → Prop}

theorem key_stateless (f : Tid → Key) : Tasks.Stateless fun t d => d.key = f t :=
  fun _ _ _ => id

theorem key_deadline {d : TcbData} : d.key.deadline = none ↔ d.realTime = false := by
  unfold TcbData.key
  cases d.realTime <;> simp

/-! ## 2. The operations -/

section Operations

variable (h : Edf f c k)
include h

theorem Edf.frame (ht : k'.tcb = k.tcb) (hq : k'.queue = k.queue) : Edf f c k' :=
  Tasks.Arranged.frame h ht hq

theorem Edf.setErrno (e : Errno) : Edf f c (k.setErrno e) := h.frame rfl rfl

theorem Edf.deadline (t : Tid) : (f t).deadline = none ↔ (k.tcb t).realTime = false := by
  rw [← h.data t]
  exact key_deadline

theorem Edf.setTaskState (t : Tid) (v : TaskState) : Edf f c (k.setTaskState t v) :=
  Tasks.Arranged.setState h (key_stateless f) v

/-- The head may have been anything if nobody is about to run. -/
theorem Edf.forget : Edf f none k :=
  ⟨h.next, fun _ _ _ _ => Before.none_left _, h.data⟩

/-- Fields that are not part of the key. -/
theorem Edf.modifyTcb {g : TcbData → TcbData} (hg : (g (k.data t)).key = (k.data t).key) :
    Edf f c (k.modifyTcb t g) :=
  Tasks.Arranged.modify h (hg.trans (h.data t))

theorem Edf.pushHead (ht : (f t).deadline = none) (q : QId) : Edf f c (k.pushHead t q) := by
  refine Tasks.Arranged.pushHead (key_stateless f) h (fun _ => ?_) fun u _ => ?_
  · rw [ht]
    exact Before.none_right c
  · rw [ht]
    exact Before.none_left _

theorem Edf.pushTail (ht : (f t).deadline = none) (q : QId) :
    Post (k.pushTail t q) fun k' => k'.current = k.current ∧ Edf f c k' := by
  have hrt := (h.deadline t).mp ht
  refine Ends.bind (Tasks.Arranged.pushTail (key_stateless f) h hrt (fun _ => ?_) fun u => ?_)
    fun _ hs => ⟨rfl, hs⟩
  · rw [ht]
    exact Before.none_right c
  · rw [ht]
    exact Before.none_right _

/-- Another queue than that of the real-time tasks. -/
theorem Edf.popHead (hq : q ≠ .ready 0) : Edf f c (k.popHead q) :=
  Tasks.Arranged.popHead (key_stateless f) h fun _ _ _ _ e => absurd e hq

/-- A task is taken out that has no real-time task behind it. -/
theorem Edf.popTask (hq : q ≠ .ready 0)
    (ht : ∀ u, (k.tcb t).next = some u → (f u).deadline = none) :
    Post (k.popTask t q) fun k' => k'.current = k.current ∧ Edf f c k' := by
  refine Ends.bind (Tasks.Arranged.popTask (key_stateless f) h fun u hu =>
    ⟨fun e => absurd e hq, fun a => ?_⟩) fun _ hs => ⟨rfl, hs⟩
  rw [ht u hu]
  exact Before.none_right _

/-- **The scheduler** takes the real-time task with the earliest deadline. -/
theorem Edf.scheduler (h0 : (f tidNull).deadline = none) :
    Edf f (f k.scheduler.2).deadline k.scheduler.1 := by
  unfold Kernel.scheduler
  cases hf : k.firstReady [0, 1, 2, 3, 4] with
  | none =>
      dsimp only
      rw [h0]
      exact h.forget
  | some i =>
      obtain ⟨hne, hlt⟩ := Kernel.firstReady_some (by decide) hf
      obtain ⟨a, ha⟩ := Option.ne_none_iff_exists'.mp hne
      simp only [ha, Option.getD_some]
      -- the task taken, while it is still at the head of its queue
      have h1 : Edf f (f a).deadline k := by
        refine ⟨h.next, fun q u hu hq => ?_, h.data⟩
        subst hq
        by_cases hi : i = 0
        · subst hi
          obtain rfl := Option.some.inj (ha.symm.trans hu)
          exact Before.refl _
        · rw [hlt 0 (by decide) (Fin.pos_of_ne_zero hi)] at hu
          cases hu
      refine Tasks.Arranged.popHead (key_stateless f) h1 fun b u hb hu _ => ?_
      obtain rfl := Option.some.inj (ha.symm.trans hb)
      exact h.next _ _ hu

end Operations

/-! ## 3. The calls that move no real-time task -/

/-- The order, with the running task before all that are ready. -/
abbrev EdfNow (f : Tid → Key) (k : Kernel) : Prop := Edf f (f k.current).deadline k

/-- A created task whose priority is that of the real-time tasks is one of them. -/
def Proper (A : Tid → Prop) (f : Tid → Key) : Prop :=
  ∀ t, A t → (f t).prio = prioRt → (f t).deadline ≠ none

/-- A task below the real-time tasks is none of them. -/
theorem Sound.no_deadline (h : Sound k L H X) (he : Edf f c k) (hp : 0 < (k.data t).prio) :
    (f t).deadline = none := by
  refine (he.deadline t).mpr (Bool.eq_false_iff.mpr fun e => ?_)
  rw [(h.task t).realTime e] at hp
  exact absurd hp (lt_irrefl _)

theorem Sound.null_deadline (h : Sound k L H X) (he : Edf f c k) : (f tidNull).deadline = none :=
  (he.deadline _).mpr ((h.task tidNull).null rfl).2.1

section Scheduling

variable (h0 : (f tidNull).deadline = none)
include h0

theorem Edf.runScheduled (h : Edf f c k) : EdfNow f k.runScheduled :=
  Edf.setTaskState (k := k.scheduler.1.setCurrent k.scheduler.2) (h.scheduler h0) _ _

theorem Edf.kTskRunNew (h : EdfNow f k) : EdfNow f k.kTskRunNew.1 := by
  unfold Kernel.kTskRunNew
  split
  · exact h
  have h1 : EdfNow f (k.scheduler.1.setCurrent k.scheduler.2) := Edf.scheduler h h0
  dsimp only
  split
  · have h2 := Edf.setTaskState h1 k.scheduler.2 .running
    split
    · exact Edf.setTaskState h2 _ _
    · exact h2
  · exact h1

theorem Edf.kTskYield (h : EdfNow f k) : Post k.kTskYield fun r => EdfNow f r.1 := by
  unfold Kernel.kTskYield
  refine Ends.ite (fun _ => h) fun _ => ?_
  refine Ends.ite (fun _ => h) fun hrt => ?_
  have hc := (Edf.deadline h k.current).mpr (Bool.eq_false_iff.mpr hrt)
  refine Ends.ite (fun _ => h) fun _ => ?_
  refine Ends.ite (fun _ => ?_) fun _ => Edf.kTskRunNew h0 h
  refine Ends.bind Ends.trivial fun q _ => ?_
  refine Ends.bind (Edf.pushTail h hc q) fun k₁ ⟨h1, h2⟩ => ?_
  exact Edf.kTskRunNew h0 (by rw [EdfNow, h1]; exact h2)

/-- A task that goes back to its queue, and the scheduler. -/
theorem Edf.giveWay (h : EdfNow f k) (hc : (f k.current).deadline = none) :
    Post k.giveWay (EdfNow f) :=
  Ends.bind Ends.trivial fun q _ => Edf.kTskRunNew h0 (k := k.pushHead k.current q)
    (Edf.pushHead h hc q)

end Scheduling

/-- The end of `k_tsk_create`. -/
theorem Edf.startNew (h : EdfNow f k) (ht : (f t).deadline = none)
    (hc : (k.tcb t).prio < k.cur.prio → (f k.current).deadline = none) (order : Int) :
    Post (k.startNew t order) (EdfNow f) := by
  unfold Kernel.startNew
  refine Ends.ite (fun hlt => ?_) fun _ => ?_
  · refine Ends.bind Ends.trivial fun q _ => ?_
    have h1 : EdfNow f ((k.setCurrent t).setTaskState t .running) := by
      refine Edf.setTaskState (k := k.setCurrent t) ?_ t .running
      change Edf f (f t).deadline k
      rw [ht]
      exact Edf.forget h
    exact Edf.pushHead h1 (hc hlt) q
  · refine Ends.bind Ends.trivial fun q _ => (Edf.pushTail h ht q).imp fun k' ⟨h1, h2⟩ => ?_
    rw [EdfNow, h1]
    exact h2

/-- The priorities and deadlines of the tasks are in order. -/
structure Timely (A : Tid → Prop) (f : Tid → Key) (k : Kernel) : Prop where
  indexed : Indexed A k
  edf : EdfNow f k
  proper : Proper A f

theorem Timely.setErrno (h : Timely A f k) (e : Errno) : Timely A f (k.setErrno e) :=
  ⟨h.indexed.setErrno e, Edf.setErrno h.edf e, h.proper⟩

/-- New content of a TCB that is then none of the real-time tasks. -/
theorem Edf.rekey (h : Edf f c k) {g : TcbData → TcbData}
    (hg : (g (k.data t)).key.deadline = none) :
    Edf (Function.update f t (g (k.data t)).key) c (k.modifyTcb t g) := by
  have hf : ∀ u, (Function.update f t (g (k.data t)).key u).deadline = none ∨
      Function.update f t (g (k.data t)).key u = f u := fun u => by
    by_cases e : u = t
    · subst e
      rw [Function.update_self]
      exact Or.inl hg
    · exact Or.inr (Function.update_of_ne e _ _)
  refine ⟨fun a b hab => ?_, fun q u hu hq => ?_, fun u => ?_⟩
  · rcases hf a with e | e
    · rw [e]
      exact Before.none_left _
    rcases hf b with e' | e'
    · rw [e']
      exact Before.none_right _
    · rw [e, e']
      exact h.next a b ((k.toTasks.modify_next t a g).symm.trans hab)
  · rcases hf u with e | e
    · rw [e]
      exact Before.none_right _
    · rw [e]
      exact h.head q u hu hq
  · rw [show Tasks.data (k.modifyTcb t g).toTasks u = _ from congrFun (k.data_modifyTcb t g) u,
      Function.update_apply, Function.update_apply]
    split
    · rfl
    · exact h.data u

/-- Creating a task that is none of the real-time tasks. -/
theorem Edf.createNew (h : Edf f c k) (info : TaskInit) (t : Tid) :
    Post (k.kTskCreateNew info t) fun r => (r.2 = rtxErr → Edf f c r.1) ∧
      (r.2 = rtxOk → Edf (Function.update f t ⟨info.prio, none⟩) c r.1) := by
  refine (kTskCreateNew_spec k info t).imp fun r hr => ?_
  obtain ⟨k', r⟩ := r
  obtain ⟨power, k₁, ptr, -, hal, hr⟩ := hr
  obtain ⟨m, -, rfl⟩ := mpoolAlloc_eq_ok hal
  obtain ⟨-, rfl, rfl⟩ | ⟨a, -, rfl, rfl⟩ := hr
  · -- no memory: the key of the slot is as it was
    refine ⟨fun _ => ?_, fun e => absurd e rtxErr_ne_rtxOk⟩
    exact (h.modifyTcb (t := t) (g := fun d => { d with pspBase := none }) rfl).frame rfl rfl
  · refine ⟨fun e => absurd e.symm rtxErr_ne_rtxOk, fun _ => ?_⟩
    exact (h.rekey (t := t) (g := fun _ => info.tcb t a (power2 power)) rfl).frame rfl rfl

/-- `k_tsk_create` with PRIO_RT, where there is a slot and memory for the task. -/
def Kernel.CreatesRt (k : Kernel) (prio stackSize : Nat) : Prop :=
  prio = prioRt ∧ ¬ (k.dormantSlot = 13 ∧ (k.tcb k.dormantSlot).state ≠ .dormant) ∧
    k.hasMemory (if stackSize < procStackSize then procStackSize else stackSize) = true

instance (k : Kernel) (prio stackSize : Nat) : Decidable (k.CreatesRt prio stackSize) :=
  inferInstanceAs (Decidable (_ ∧ _ ∧ _))

/-- The end of `k_tsk_create`, for a task that is none of the real-time tasks. -/
theorem Timely.startNew {k₂ : Kernel} (info : TaskInit) {a size : Nat} (h : Timely A f k)
    (hR : Rest k L) (h0 : k.current ≠ tidNull) (hct : k.current ≠ t)
    (hd : k₂.data = Function.update k.data t (info.tcb t a size)) (hcur : k₂.current = k.current)
    (h1 : (∃ i : Fin 5, info.prio = order2priority i.val) → Indexed (fun u => A u ∨ u = t) k₂)
    (h2 : Edf (Function.update f t ⟨info.prio, none⟩) (f k.current).deadline k₂)
    (hp : priority2order info.prio ≠ -1) (hrt : info.prio ≠ prioRt) :
    Post (k₂.startNew t (priority2order info.prio)) fun k' => ∃ A' f', Timely A' f' k' := by
  set f' := Function.update f t ⟨info.prio, none⟩
  have hfc : f' k.current = f k.current := Function.update_of_ne hct _ _
  have hpt : (k₂.data t).prio = info.prio := by rw [hd, Function.update_self]; rfl
  have hpc : (k₂.data k₂.current).prio = (k.data k.current).prio := by
    rw [hcur, hd, Function.update_of_ne hct]
  obtain ⟨-, j, hj, -⟩ := hR.running h0
  rcases priority2order_cases info.prio with hp' | hp' | hp'
  · exact absurd hp' hp
  · -- the null priority is below that of the caller
    rw [hp', startNew_null]
    · exact trivial
    · rw [hpt, hpc, hp', hj]
      exact (order2priority_lt_null j).not_gt
  obtain ⟨i, hi⟩ := id hp'
  have h3 := (h1 hp').startNew (hcur.trans_ne h0) (Or.inr rfl) (readyAt_priority.mpr hi)
  have h4 : Post (k₂.startNew t (priority2order info.prio)) (EdfNow f') := by
    refine Edf.startNew ?_ ?_ (fun hlt => ?_) _
    · rw [EdfNow, hcur, hfc]
      exact h2
    · rw [show f' t = _ from Function.update_self _ _ _]
    · rw [hcur, hfc]
      exact hR.no_deadline h.edf ((Nat.zero_le _).trans_lt (hlt.trans_eq hpc))
  refine (h3.both h4).imp fun k' hk' => ⟨_, f', hk'.1, hk'.2, ?_⟩
  intro u hu hprio
  by_cases e : u = t
  · subst e
    rw [show f' u = _ from Function.update_self _ _ _] at hprio
    exact absurd hprio hrt
  · rw [show f' u = f u from Function.update_of_ne e _ _] at hprio ⊢
    exact h.proper u (hu.resolve_right e) hprio

/-- **`k_tsk_create`** keeps the order unless it gives a task PRIO_RT. -/
theorem Timely.kTskCreate (h : Timely A f k) (hR : Rest k L) (h0 : k.current ≠ tidNull)
    {taskEntry prio stackSize : Nat} (hrt : ¬ k.CreatesRt prio stackSize) :
    Post (k.kTskCreate taskEntry prio stackSize) fun r => ∃ A' f', Timely A' f' r.1 := by
  unfold Kernel.kTskCreate
  refine Ends.ite (fun _ => ⟨A, f, h.setErrno _⟩) fun hslot => ?_
  refine Ends.ite (fun _ => ⟨A, f, h.setErrno _⟩) fun hprio => ?_
  have ht := dormantSlot_ne k
  have hs := dormantSlot_dormant k hslot
  have hct := hR.current_ne hs ht
  set size := if stackSize < procStackSize then procStackSize else stackSize
  have hmem : k.hasMemory size = true → prio ≠ prioRt := fun hm e => hrt ⟨e, hslot, hm⟩
  generalize k.dormantSlot = t at ht hs hct ⊢
  rw [ends_bind]
  refine ((Edf.createNew h.edf ⟨taskEntry, size, prio, 0⟩ t).both
    (h.indexed.createNew ⟨taskEntry, size, prio, 0⟩ ht)).imp fun r hr => ?_
  obtain ⟨k', r⟩ := r
  obtain ⟨hed, hcur, ⟨-, rfl, h1⟩ | ⟨hm, rfl, ⟨a, bytes, hd⟩, h1⟩⟩ := hr
  · refine Ends.ite (fun _ => ⟨A, f, h1, ?_, h.proper⟩) fun he => absurd rfl he
    rw [EdfNow, hcur]
    exact hed.1 rfl
  · refine Ends.ite (fun he => absurd he (by decide)) fun _ => ?_
    refine Ends.bind (h.startNew ⟨taskEntry, size, prio, 0⟩ hR h0 hct hd hcur h1
      (hed.2 rfl) hprio (hmem hm)) fun _ hk => hk

section SetPrio

variable {prio : Nat} (hR : Rest k L) (hrt : (k.data t).realTime = false)
include hR hrt

omit hR in
/-- A new priority for a task that is no real-time task. -/
theorem Edf.setPrio (h : Edf f c k) :
    Edf (Function.update f t ⟨prio, none⟩) c (k.setPrio t prio) := by
  have hkey : TcbData.key { k.data t with prio } = ⟨prio, none⟩ := by
    unfold TcbData.key
    simp [hrt]
  have h1 := h.rekey (t := t) (g := fun d => { d with prio }) (congrArg Key.deadline hkey)
  rw [hkey] at h1
  exact h1

omit hR in
/-- No deadline has changed. -/
theorem Edf.setPrio_deadline (h : Edf f c k) (u : Tid) :
    (Function.update f t ⟨prio, none⟩ u).deadline = (f u).deadline := by
  rw [Function.update_apply]
  split
  next e => exact e ▸ ((h.deadline t).mpr hrt).symm
  · rfl

omit hrt in
/-- A task below the real-time tasks has none of them behind it. -/
theorem Rest.next_no_deadline (he : Edf f c k) (hp : 0 < (k.data t).prio)
    (hs : (k.data t).state = .ready ∨ (k.data t).state = .running)
    (hu : (k.tcb t).next = some u) : (f u).deadline = none := by
  by_cases hm : ∃ q, t ∈ L q
  · obtain ⟨q, hq⟩ := hm
    have hmem : u ∈ L q := (hR.placed.rep.chain q).linked.next_mem hq hu
    obtain ⟨h1, h2⟩ := hR.placed.of_mem hq
    -- the queue of both is a ready queue, of the priority of both
    cases q with
    | ready i =>
        have hpt := readyAt_priority.mp (h2 i rfl)
        have hpu := readyAt_priority.mp ((hR.placed.of_mem hmem).2 i rfl)
        exact hR.no_deadline he ((hp.trans_eq hpt).trans_eq hpu.symm)
    | suspend | waiting m =>
        rw [show (k.data t).state = _ from h1] at hs
        simp [QId.state] at hs
  · rw [hR.placed.next_none (fun q hq => hm ⟨q, hq⟩) (Set.notMem_empty t)] at hu
    cases hu

/-- Taking a task with its new priority out of its old queue. -/
theorem Edf.takeOut {k₁ : Kernel} (h : Edf f c k) (hp : 0 < (k.data t).prio)
    (hs : (k.data t).state = .ready ∨ (k.data t).state = .running)
    (hq : readyAt (priority2order (k.data t).prio) = .ok q)
    (hk : k₁.toTasks = (k.setPrio t prio).toTasks) :
    Post (k₁.popTask t q) fun k' => k'.current = k₁.current ∧
      Edf (Function.update f t ⟨prio, none⟩) c k' := by
  have h1 : Edf (Function.update f t ⟨prio, none⟩) c k₁ := by
    unfold Edf
    rw [hk]
    exact Edf.setPrio hrt h
  refine Edf.popTask h1 (fun e => ?_) fun u hu => ?_
  · rw [e] at hq
    rw [readyAt_priority.mp hq] at hp
    exact absurd hp (lt_irrefl _)
  · rw [hk] at hu
    rw [Edf.setPrio_deadline hrt h]
    exact hR.next_no_deadline h hp hs
      ((k.toTasks.modify_next t t fun d => { d with prio }).symm.trans hu)

/-- Raising a task above its caller. -/
theorem Edf.promote (h : EdfNow f k) (hct : t ≠ k.current) (hp : 0 < (k.data t).prio)
    (hs : (k.data t).state = .ready ∨ (k.data t).state = .running)
    (hlt : prio < (k.data k.current).prio) :
    Post (k.promote t prio) (EdfNow (Function.update f t ⟨prio, none⟩)) := by
  have hc : (Function.update f t ⟨prio, none⟩ k.current).deadline = none := by
    rw [Function.update_of_ne hct.symm]
    exact hR.no_deadline h ((Nat.zero_le _).trans_lt hlt)
  unfold Kernel.promote
  refine Ends.bind Ends.returned fun q hq => ?_
  refine Ends.bind (Edf.takeOut hR hrt (Edf.forget h) hp hs hq rfl)
    fun k₂ ⟨h1, h2⟩ => ?_
  refine Ends.bind Ends.trivial fun q' _ => ?_
  have h3 := Edf.setTaskState (Edf.pushHead h2 hc q') t .running
  change Edf _ (Function.update f t ⟨prio, none⟩ k₂.current).deadline _
  rw [h1]
  change Edf _ (Function.update f t ⟨prio, none⟩ t).deadline _
  rw [Function.update_self]
  exact h3

/-- Moving another task to the queue of its new priority. -/
theorem Edf.requeue (h : EdfNow f k) (hct : t ≠ k.current) (hp : 0 < (k.data t).prio)
    (hs : (k.data t).state = .ready ∨ (k.data t).state = .running) :
    Post (k.requeue t prio) (EdfNow (Function.update f t ⟨prio, none⟩)) := by
  unfold Kernel.requeue
  refine Ends.bind Ends.returned fun q hq => ?_
  refine Ends.bind (Edf.takeOut hR hrt h hp hs hq rfl) fun k₂ ⟨h1, h2⟩ => ?_
  refine Ends.bind Ends.trivial fun q' _ => ?_
  refine (Edf.pushTail (t := t) h2 (by rw [Function.update_self]) q').imp fun k₃ ⟨h3, h4⟩ => ?_
  change Edf _ (Function.update f t ⟨prio, none⟩ k₃.current).deadline _
  rw [h3, h1]
  change Edf _ (Function.update f t ⟨prio, none⟩ k.current).deadline _
  rw [Function.update_of_ne hct.symm]
  exact h4

omit hrt in
/-- Lowering the caller: the scheduler's choice runs, or the caller goes on. -/
theorem Edf.demoteSelf (hrt : (k.data k.current).realTime = false) (h : EdfNow f k)
    (h0 : k.current ≠ tidNull) (hp : prio < prioNull) :
    Post (k.demoteSelf prio) (EdfNow (Function.update f k.current ⟨prio, none⟩)) := by
  set f' := Function.update f k.current ⟨prio, none⟩
  have hc : (f' k.current).deadline = none :=
    congrArg Key.deadline (Function.update_self k.current _ f)
  have h1 : Edf f' none (k.setPrio k.current prio) := Edf.setPrio hrt (Edf.forget h)
  have hstay : EdfNow f' (k.setPrio k.current prio) := by
    change Edf f' (f' k.current).deadline _
    rw [hc]
    exact h1
  unfold Kernel.demoteSelf
  refine Ends.ite (fun hle => ?_) fun _ => hstay
  rcases hR.placed.firstReady with ⟨hf, -⟩ | ⟨i, u, l, hf, hL, hh, -⟩
  · -- the null task is below any priority
    have hhigh : k.highestTask = tidNull := by
      unfold Kernel.highestTask
      rw [hf]
    have hnull : ((k.setPrio k.current prio).data tidNull).prio = prioNull := by
      refine (congrArg TcbData.prio (congrFun (k.data_modifyTcb k.current _) tidNull)).trans ?_
      rw [Function.update_of_ne h0.symm]
      exact ((hR.task tidNull).null rfl).1
    rw [hhigh] at hle
    exact absurd (hnull.symm.trans_le hle) hp.not_ge
  · have hmem : u ∈ L (.ready i) := hL ▸ List.mem_cons_self
    have huc : u ≠ k.current := fun e => (hR.placed.not_held hmem).1 e
    have hhigh : k.highestTask = u := by
      unfold Kernel.highestTask
      rw [hf]
      simp only [hh, Option.getD_some]
    rw [hhigh]
    have hiq : readyAt (priority2order ((k.setPrio k.current prio).data u).prio) =
        .ok (.ready i) := by
      rw [show (k.setPrio k.current prio).data u = k.data u from
        (congrFun (k.data_modifyTcb k.current _) u).trans (Function.update_of_ne huc _ _)]
      exact (hR.placed.of_mem hmem).2 i rfl
    refine Ends.bind_ok hiq ?_
    refine Ends.bind Ends.trivial fun q' _ => ?_
    -- what is taken is what the scheduler would take
    have hsched : (k.setPrio k.current prio).scheduler =
        ((k.setPrio k.current prio).popHead (.ready i), u) := by
      unfold Kernel.scheduler
      rw [show (k.setPrio k.current prio).firstReady [0, 1, 2, 3, 4] = some i from hf]
      dsimp only
      rw [show ((k.setPrio k.current prio).queue (.ready i)).head = some u from hh]
      rfl
    have h2 := h1.scheduler
      ((Edf.setPrio_deadline hrt h tidNull).trans (hR.null_deadline h))
    rw [hsched] at h2
    refine Ends.bind (Edf.pushTail (k := ((k.setPrio k.current prio).setCurrent u).popHead
      (.ready i)) h2 hc q') fun k₂ ⟨h3, h4⟩ => ?_
    change Edf f' (f' k₂.current).deadline _
    rw [h3]
    exact Edf.setTaskState h4 u .running

end SetPrio


/-- What `k_tsk_set_prio` does to the task `t` when its arguments are accepted. -/
theorem Timely.changePrio {prio : Nat} (h : Timely A f k) (hR : Rest k L) (h0 : k.current ≠ tidNull)
    (ht : t ≠ tidNull) (hp : ∃ i : Fin 5, prio = order2priority i.val)
    (hd : (k.data t).state ≠ .dormant) (hrt : (k.data t).realTime = true → prio = prioRt)
    (hrt' : (k.data t).realTime = false → prio ≠ prioRt) :
    Post (k.changePrio t t.val prio) fun k' => ∃ f', EdfNow f' k' ∧ Proper A f' := by
  have htid := hR.tid_iff h0 (t := t)
  -- the key of a task that is no real-time task
  have hproper : (k.data t).realTime = false → Proper A (Function.update f t ⟨prio, none⟩) := by
    intro hr u hu hprio
    by_cases e : u = t
    · subst e
      rw [Function.update_self] at hprio
      exact absurd hprio (hrt' hr)
    · rw [Function.update_of_ne e] at hprio ⊢
      exact h.proper u hu hprio
  have hpos : (k.data t).realTime = false → 0 < (k.data t).prio := fun hr => by
    have hA := ((h.indexed.links.data t).created ht).mpr hd
    refine Nat.pos_of_ne_zero fun e => h.proper t hA ?_ ((h.edf.deadline t).mpr hr)
    rw [← h.edf.data t]
    exact e
  by_cases hb : (k.tcb t).state = .blkRecv ∨ (k.tcb t).state = .blkSend
  · -- a blocked task has its priority at once, and is not the one that runs
    have hr : (k.data t).realTime = false := (hR.task t).blocked hb.symm
    have hct : t ≠ k.current := fun e => hR.current_unblocked h0 (e ▸ hb)
    rw [hR.changePrio_blocked hb]
    refine ⟨_, ?_, hproper hr⟩
    change Edf _ (Function.update f t ⟨prio, none⟩ k.current).deadline _
    rw [Function.update_of_ne hct.symm]
    exact Edf.setPrio hr h.edf
  unfold Kernel.changePrio
  simp only [hb, if_false]
  refine Ends.ite (fun e => ?_) fun e => ?_
  · -- a real-time task has no other priority
    refine ⟨f, Edf.modifyTcb (g := fun d => { d with prio }) h.edf ?_, h.proper⟩
    unfold TcbData.key
    rw [show prio = (k.data t).prio from (hrt e).trans ((hR.task t).realTime e).symm]
  have hr : (k.data t).realTime = false := Bool.eq_false_iff.mpr e
  refine Ends.ite (fun _ => ⟨f, h.edf, h.proper⟩) fun _ => ?_
  have hstate := (hR.task t).movable hd hb hr
  refine Ends.ite (fun hc => ?_) fun _ => ?_
  · exact (Edf.promote hR hr h.edf (fun e => hc.2 (htid.mpr e)) (hpos hr) hstate hc.1).imp
      fun _ hk => ⟨_, hk, hproper hr⟩
  refine Ends.ite (fun hc => ?_) fun hc => ?_
  · obtain rfl := htid.mp hc
    refine Ends.ite (fun _ => ?_) fun _ => ⟨f, h.edf, h.proper⟩
    obtain ⟨i, hi⟩ := hp
    exact (Edf.demoteSelf hR hr h.edf h0 (hi ▸ order2priority_lt_null i)).imp
      fun _ hk => ⟨_, hk, hproper hr⟩
  · exact (Edf.requeue hR hr h.edf (fun e => hc (htid.mpr e)) (hpos hr) hstate).imp
      fun _ hk => ⟨_, hk, hproper hr⟩

/-- **`k_tsk_set_prio`** keeps the order. -/
theorem Timely.kTskSetPrio (h : Timely A f k) (hR : Rest k L) (h0 : k.current ≠ tidNull)
    (taskId prio : Nat) :
    Post (k.kTskSetPrio taskId prio) fun r => ∃ f', EdfNow f' r.1 ∧ Proper A f' := by
  refine (k.kTskSetPrio_spec taskId prio).imp fun r hr => ?_
  obtain ⟨-, e, he⟩ | ⟨t, rfl, hacc, hk⟩ := hr
  · rw [he]
    exact ⟨f, Edf.setErrno h.edf e, h.proper⟩
  · exact (h.changePrio hR h0 hacc.ne_null hacc.queue hacc.state hacc.realTime hacc.other).of_ok hk

/-! ## 4. The calls on mailboxes -/

/-- Only the real-time tasks have their priority. -/
def Fits (f : Tid → Key) : Prop := ∀ t, 0 < (f t).prio → (f t).deadline = none

theorem Sound.fits (h : Sound k L H X) (he : Edf f c k) : Fits f := fun t hp =>
  h.no_deadline he (by rw [← he.data t] at hp; exact hp)

theorem Edf.prio (h : Edf f c k) (t : Tid) : (k.tcb t).prio = (f t).prio := by
  rw [← h.data t]
  rfl

/-- A task that is blocked is no real-time task. -/
theorem Sound.blocked_deadline (h : Sound k L H X) (he : Edf f c k)
    (hb : (k.data t).state = .blkSend ∨ (k.data t).state = .blkRecv) : (f t).deadline = none :=
  (he.deadline t).mpr ((h.task t).blocked hb)

/-- A message put in a ring moves no task. -/
theorem Edf.pushBuffer (h : Edf f c k) (m : MbxId) (buf : Buf) :
    Post (k.pushBuffer m buf) fun k' => k'.current = k.current ∧ Edf f c k' := by
  refine Ends.returned.imp fun k' hk => ?_
  obtain ⟨bytes, mb, r, -, rfl⟩ := Kernel.pushBuffer_eq_ok hk
  exact ⟨rfl, h.frame rfl rfl⟩

/-- Nor does a message taken from one. -/
theorem Edf.popBuffer (h : Edf f c k) (m : MbxId) (buf : Buf) (len : Nat) :
    Post (k.popBuffer m buf len) fun r => r.1.current = k.current ∧ Edf f c r.1 := by
  refine Ends.returned.imp fun r hk => ?_
  obtain ⟨mb, -, hr⟩ := Kernel.popBuffer_eq_ok hk
  rw [hr]
  exact ⟨rfl, h.frame rfl rfl⟩

section Mailboxes

variable (h0 : (f tidNull).deadline = none) (hfit : Fits f)
include h0

include hfit in
/-- Waking the owner of a mailbox. -/
theorem Edf.wake (hR : Rest k L) (h : EdfNow f k) (t : Tid) (preempt : Bool) :
    Post (k.wake t preempt) (EdfNow f) := by
  unfold Kernel.wake
  refine Ends.ite (fun hb => ?_) fun _ => h
  have ht := hR.blocked_deadline h (Or.inr hb)
  refine Ends.bind Ends.trivial fun q _ => ?_
  refine Ends.bind (Edf.pushTail h ht q) fun k₁ ⟨h1, h2⟩ => ?_
  have h3 : EdfNow f (k₁.setTaskState t .ready) := by
    change Edf f (f k₁.current).deadline _
    rw [h1]
    exact h2.setTaskState t .ready
  refine Ends.ite (fun hlt => ?_) fun _ => h3
  -- the sender is below the receiver, so it is no real-time task
  have hc : (f (k₁.setTaskState t .ready).current).deadline = none :=
    hfit _ ((Nat.zero_le _).trans_lt (hlt.1.trans_eq (h3.prio _)))
  exact Ends.bind Ends.trivial fun q' _ =>
    Edf.kTskRunNew h0 (k := (k₁.setTaskState t .ready).pushHead _ q') (h3.pushHead hc q')

include hfit in
theorem Edf.deliver (hR : Rest k L) (h : EdfNow f k) (m : MbxId) (buf : Buf) (preempt : Bool) :
    Post (k.deliver m buf preempt) (EdfNow f) := by
  unfold Kernel.deliver
  refine Ends.bind (Ends.returned.both (Edf.pushBuffer h m buf)) fun k₁ ⟨hk, h1, h2⟩ => ?_
  obtain ⟨hR₁, -⟩ := hR.pushBuffer hk
  have h3 : EdfNow f k₁ := by
    rw [EdfNow, h1]
    exact h2
  cases m with
  | uart => exact h3
  | task t => exact Edf.wake h0 hfit hR₁ h3 t preempt

/-- Letting the sender wait. -/
theorem Edf.blockSend (h : EdfNow f k) (hc : (f k.current).deadline = none) (m : MbxId)
    (buf : Buf) : Post (k.blockSend m buf) (EdfNow f) := by
  unfold Kernel.blockSend
  have h1 := Edf.modifyTcb (t := k.current)
    (g := fun d => { d with state := .blkSend, messageHeader := some buf }) h rfl
  refine Ends.bind (Edf.pushTail h1 hc (.waiting m)) fun k₁ ⟨h2, h3⟩ => ?_
  exact Edf.kTskRunNew h0 (by rw [EdfNow, h2]; exact h3)

omit h0 in
/-- The loop of the receive calls. -/
theorem Edf.releaseLoop {m : MbxId} (n : Nat) (hR : Rest k L) (h : Edf f c k) :
    Post (Kernel.releaseLoop m n k) fun k' => k'.current = k.current ∧ Edf f c k' := by
  induction n generalizing k L with
  | zero => exact ⟨rfl, h⟩
  | succ n ih =>
      have hhead := (hR.placed.rep.chain (.waiting m)).head
      unfold Kernel.releaseLoop
      cases hL : L (.waiting m) with
      | nil =>
          rw [hL] at hhead
          rw [show (k.queue (.waiting m)).head = none from hhead]
          exact ⟨rfl, h⟩
      | cons t l =>
          rw [hL] at hhead
          rw [show (k.queue (.waiting m)).head = some t from hhead]
          simp only
          cases hb : (k.tcb t).messageHeader with
          | none => exact trivial
          | some buf =>
              refine Ends.ite (fun _ => ⟨rfl, h⟩) fun hf => ?_
              have ht := hR.blocked_deadline h (t := t)
                (Or.inl (hR.placed.state_of_mem (hL ▸ List.mem_cons_self)))
              have h1 := h.popHead (q := .waiting m) (by simp)
              refine Ends.bind ((hR.round hL hb (not_not.mp hf)).both
                (h1.pushBuffer m buf)) fun k₁ ⟨hk₁, h2, h3⟩ => ?_
              obtain ⟨i, s, L₁, h4, h5, hR₁, -⟩ := hk₁
              refine Ends.bind_ok h4 (Ends.bind_ok h5 ?_)
              have h6 := (h3.pushTail ht (.ready i)).of_ok h5
              exact (ih hR₁ h6.2).imp fun k' hk' => ⟨hk'.1.trans h2, hk'.2⟩

/-- The waiting senders are released, and the receiver gives way. -/
theorem Edf.released (hR : Rest k L) (h : EdfNow f k) (hc : (f k.current).deadline = none)
    (m : MbxId) : Post (k.release m) fun k₁ => EdfNow f k₁ ∧ Post k₁.giveWay (EdfNow f) := by
  refine (Edf.releaseLoop (m := m) _ hR h).imp fun k₁ ⟨h1, h2⟩ => ?_
  have h3 : EdfNow f k₁ := by
    rw [EdfNow, h1]
    exact h2
  exact ⟨h3, Edf.giveWay h0 h3 (h1 ▸ hc)⟩

end Mailboxes

section Calls

variable (hR : Rest k L) (h : EdfNow f k) {b : Option Buf} {len : Nat}
include hR h

/-- **`k_send_msg`**, if a real-time task does not block in it. -/
theorem Edf.kSendMsg {receiverTid : Nat} {buf : Buf}
    (hrt : (k.data k.current).realTime = true → k.sendBlocks receiverTid buf = false) :
    Post (k.kSendMsg receiverTid buf) fun r => EdfNow f r.1 := by
  have h0 := hR.null_deadline h
  unfold Kernel.kSendMsg
  cases hc : k.checkSend receiverTid buf with
  | error e => exact trivial
  | ok r =>
      cases r with
      | error e => exact Edf.setErrno h e
      | ok m =>
          refine Ends.ite (fun _ => ?_) fun hadm => ?_
          · exact Ends.bind (Edf.deliver h0 (hR.fits h) hR h m buf true) fun _ hk => hk
          · refine Ends.bind (Edf.blockSend h0 h ((h.deadline _).mpr ?_) m buf) fun _ hk => hk
            refine Bool.eq_false_iff.mpr fun e => ?_
            have := hrt e
            unfold Kernel.sendBlocks at this
            simp [hc, hadm] at this

/-- **`k_send_msg_nb`.** -/
theorem Edf.kSendMsgNb (receiverTid : Nat) (buf : Buf) :
    Post (k.kSendMsgNb receiverTid buf) fun r => EdfNow f r.1 := by
  unfold Kernel.kSendMsgNb
  refine Ends.bind Ends.trivial fun r _ => ?_
  cases r with
  | error e => exact Edf.setErrno h e
  | ok m =>
      refine Ends.ite (fun _ => ?_) fun _ => Edf.setErrno h _
      exact Ends.bind (Edf.deliver (hR.null_deadline h) (hR.fits h) hR h m buf _) fun _ hk => hk

/-- **`k_recv_msg`**, if a real-time task does not get past its checks. -/
theorem Edf.kRecvMsg (h0 : k.current ≠ tidNull)
    (hrt : (k.data k.current).realTime = true → k.receives b len = false) :
    Post (k.kRecvMsg b len) fun r => EdfNow f r.1 := by
  have hnull := hR.null_deadline h
  unfold Kernel.kRecvMsg
  cases b with
  | none => exact Edf.setErrno h _
  | some buf =>
      refine Ends.bind_ok (hR.recvMbx h0) ?_
      refine Ends.ite (fun _ => Edf.setErrno h _) fun hact => ?_
      cases hp : k.popBuffer (.task k.current) buf len with
      | error e => exact trivial
      | ok r =>
          obtain ⟨k₁, buf', check⟩ := r
          obtain ⟨hR₁, -, h1, -⟩ := hR.popBuffer hp
          have h2 : EdfNow f k₁ := by
            rw [EdfNow, h1]
            exact ((Edf.popBuffer h _ buf len).of_ok hp).2
          refine Ends.ite (fun _ => Edf.setErrno h2 _) fun hne => ?_
          have hc : (f k₁.current).deadline = none := by
            rw [h1]
            refine (h.deadline _).mpr (Bool.eq_false_iff.mpr fun e => ?_)
            have := hrt e
            unfold Kernel.receives at this
            simp [hp, hne, hact] at this
          have hrest : ∀ {k₂ : Kernel}, EdfNow f k₂ → EdfNow f { k₂ with
              pend := Function.update k₂.pend k₁.current (some ⟨.task k.current, buf', len⟩) } :=
            fun h => Edf.frame h rfl rfl
          refine Ends.ite (fun _ => ?_) fun _ => ?_
          · have h3 : EdfNow f (k₁.setTaskState k₁.current .blkRecv).kTskRunNew.1 :=
              Edf.kTskRunNew hnull (Edf.setTaskState h2 _ _)
            obtain ⟨s, t, L', h5, -⟩ := hR₁.blockRecv (h1 ▸ h0)
              ((Edf.deadline h2 _).mp hc) ⟨.task k.current, buf', len⟩
            rw [h5] at h3
            simp only [h5]
            exact hrest h3
          · refine Ends.bind (Edf.released hnull hR₁ h2 hc _) fun k₂ ⟨_, h3⟩ => ?_
            exact Ends.bind h3 fun _ hk => hk

/-- **`k_recv_msg_nb`**, likewise. -/
theorem Edf.kRecvMsgNb (h0 : k.current ≠ tidNull)
    (hrt : (k.data k.current).realTime = true → k.receivesNb b len = false) :
    Post (k.kRecvMsgNb b len) fun r => EdfNow f r.1 := by
  unfold Kernel.kRecvMsgNb
  cases b with
  | none => exact Edf.setErrno h _
  | some buf =>
      refine Ends.bind_ok (hR.recvMbx h0) ?_
      refine Ends.ite (fun _ => Edf.setErrno h _) fun hact => ?_
      refine Ends.ite (fun _ => Edf.setErrno h _) fun hsize => ?_
      cases hp : k.popBuffer (.task k.current) buf len with
      | error e => exact trivial
      | ok r =>
          obtain ⟨k₁, buf', check⟩ := r
          obtain ⟨hR₁, -, h1, -⟩ := hR.popBuffer hp
          have h2 : EdfNow f k₁ := by
            rw [EdfNow, h1]
            exact ((Edf.popBuffer h _ buf len).of_ok hp).2
          refine Ends.ite (fun _ => Edf.setErrno h2 _) fun hne => ?_
          have hc : (f k₁.current).deadline = none := by
            rw [h1]
            refine (h.deadline _).mpr (Bool.eq_false_iff.mpr fun e => ?_)
            have := hrt e
            unfold Kernel.receivesNb Kernel.receives at this
            simp [hp, hne, hact, hsize] at this
          refine Ends.bind (Edf.released (hR.null_deadline h) hR₁ h2 hc _) fun k₂ ⟨h3, h4⟩ => ?_
          refine Ends.ite (fun _ => h3) fun _ => ?_
          exact Ends.bind h4 fun _ hk => hk

/-- **The second half of a `k_recv_msg`** that was switched out. -/
theorem Edf.resumeRecv {p : Pending} (hp : k.pend k.current = some p) :
    Post (k.resumeRecv p) fun r => EdfNow f r.1 := by
  have hrt := (hR.pend k.current (by rw [hp]; simp)).2
  have hR' : Rest { k with pend := Function.update k.pend k.current none } L :=
    ⟨hR.toSound.setPend fun e => absurd rfl e, hR.current⟩
  have h' : EdfNow f { k with pend := Function.update k.pend k.current none } :=
    Edf.frame h rfl rfl
  unfold Kernel.resumeRecv Kernel.recvRest
  refine ends_bind.mpr (ends_bind.mpr ?_)
  refine (Ends.returned.both (Edf.popBuffer h' p.mbx p.buf p.len)).imp
    fun r ⟨hpop, h1, h2⟩ => ?_
  obtain ⟨hR₁, -⟩ := hR'.popBuffer hpop
  have h3 : EdfNow f r.1 := by
    rw [EdfNow, h1]
    exact h2
  have hc : (f r.1.current).deadline = none := by
    rw [h1]
    exact (h.deadline _).mpr hrt
  refine Ends.bind (Edf.released (hR.null_deadline h) hR₁ h3 hc _) fun k₂ ⟨_, h4⟩ => ?_
  exact Ends.bind h4 fun _ hk => hk

/-- **`k_mbx_create`.** -/
theorem Edf.kMbxCreate (h0 : k.current ≠ tidNull) (size : Nat) :
    Post (k.kMbxCreate size) fun r => EdfNow f r.1 := by
  refine (hR.kMbxCreate_spec h0 size).imp fun r hr => ?_
  obtain ⟨e, he⟩ | ⟨m, ptr, -, -, -, ⟨-, hr⟩ | ⟨a, -, hr⟩⟩ := hr
  · rw [he]
    exact Edf.setErrno h e
  · rw [hr]
    exact Edf.frame h rfl rfl
  · rw [hr]
    exact Edf.frame h rfl rfl

end Calls

/-! ## 5. Where a real-time task moves -/

section Lists

variable {s : Tasks Tid QId} {l : List Tid}

/-- Among real-time tasks the order is that of the deadlines. -/
theorem isChain_iff_sorted (hd : ∀ u, (s.data u).key = f u)
    (hl : ∀ u ∈ l, (f u).deadline ≠ none) :
    (l.IsChain fun a b => Before (f a).deadline (f b).deadline) ↔
      l.Pairwise fun a b => (s.data a).tskDeadline ≤ (s.data b).tskDeadline := by
  have hsome : ∀ u ∈ l, (f u).deadline = some (s.data u).tskDeadline := fun u hu => by
    have hrt : (s.data u).realTime = true := by
      by_contra hne
      exact hl u hu (hd u ▸ key_deadline.mpr (Bool.eq_false_iff.mpr hne))
    rw [← hd u, TcbData.key, if_pos hrt]
  have htrans : Trans (fun a b : Tid => (s.data a).tskDeadline ≤ (s.data b).tskDeadline)
      (fun a b => (s.data a).tskDeadline ≤ (s.data b).tskDeadline)
      (fun a b => (s.data a).tskDeadline ≤ (s.data b).tskDeadline) := ⟨le_trans⟩
  rw [← List.isChain_iff_pairwise]
  refine List.IsChain.iff_of_mem_imp fun a b ha hb => ?_
  rw [hsome a ha, hsome b hb]
  exact ⟨fun h => h _ rfl _ rfl, fun h x hx y hy => by cases hx; cases hy; exact h⟩

/-- `push_tail` puts a real-time task where its deadline belongs. -/
theorem isChain_queued (hd : ∀ u, (s.data u).key = f u) (hl : ∀ u ∈ l, (f u).deadline ≠ none)
    (ht : (f t).deadline ≠ none)
    (hc : l.IsChain fun a b => Before (f a).deadline (f b).deadline) :
    (s.queued t l).IsChain fun a b => Before (f a).deadline (f b).deadline := by
  have hrt : (s.data t).realTime = true := by
    by_contra hne
    exact ht (hd t ▸ key_deadline.mpr (Bool.eq_false_iff.mpr hne))
  have htotal : Std.Total fun a b : Tid => (s.data a).tskDeadline ≤ (s.data b).tskDeadline :=
    ⟨fun a b => le_total _ _⟩
  have htrans : IsTrans Tid fun a b => (s.data a).tskDeadline ≤ (s.data b).tskDeadline :=
    ⟨fun _ _ _ => le_trans⟩
  refine (isChain_iff_sorted hd fun u hu => ?_).mpr ?_
  · rcases Tasks.mem_queued.mp hu with rfl | hu
    · exact ht
    · exact hl u hu
  · rw [Tasks.queued, if_pos hrt]
    exact ((isChain_iff_sorted hd hl).mp hc).orderedInsert t l

/-- The order, read off the lists. -/
theorem Sound.edf (h : Sound k L H X) (hX : ∀ t ∈ X, (f t).deadline = none)
    (hc : ∀ q, (L q).IsChain fun a b => Before (f a).deadline (f b).deadline)
    (hh : ∀ u ∈ (L (.ready 0)).head?, Before c (f u).deadline)
    (hd : ∀ u, (k.data u).key = f u) : Edf f c k := by
  refine h.placed.rep.arranged (fun t ht u => ?_) hc (fun q u hu e => ?_) hd
  · rw [hX t ht]
    exact Before.none_left _
  · subst e
    exact hh u hu

theorem Edf.isChain (he : Edf f c k) (h : Sound k L H X) (q : QId) :
    (L q).IsChain fun a b => Before (f a).deadline (f b).deadline :=
  Tasks.Arranged.isChain he h.placed.rep q

/-- The members of the queue of the real-time tasks are real-time tasks. -/
theorem Timely.member (h : Timely A f k) (hR : Sound k L H X) (hu : u ∈ L (.ready 0)) :
    (f u).deadline ≠ none := by
  obtain ⟨h1, h2⟩ := hR.placed.of_mem hu
  have h3 : (k.data u).state ≠ .dormant := by
    rw [show (k.data u).state = _ from h1]
    simp [QId.state]
  refine h.proper u (((h.indexed.links.data u).created (hR.placed.not_held hu).2).mpr h3) ?_
  rw [← h.edf.data u]
  exact readyAt_priority.mp (h2 0 rfl)

/-- And those of the suspended list. -/
theorem Sound.sleeper (hR : Sound k L H X) (he : Edf f c k) (hu : u ∈ L .suspend) :
    (f u).deadline ≠ none := by
  have hrt := (hR.task u).suspended (hR.placed.state_of_mem hu)
  rw [Ne, he.deadline u, show (k.tcb u).realTime = true from hrt]
  simp

end Lists

section RealTime

variable (h : Timely A f k) (hR : Rest k L)
include h hR

/-- A new key for the running task, which is in no list. -/
theorem Edf.isChain_running (x : Key) (q : QId) :
    (L q).IsChain fun a b => Before (Function.update f k.current x a).deadline
      (Function.update f k.current x b).deadline := by
  refine (Edf.isChain h.edf hR.toSound q).imp_of_mem_imp fun a b ha hb hab => ?_
  have hne : ∀ {u}, u ∈ L q → u ≠ k.current := fun hu e =>
    hR.placed.out _ (Or.inl rfl) q (e ▸ hu)
  rw [Function.update_of_ne (hne ha), Function.update_of_ne (hne hb)]
  exact hab

/-- **The running task goes into a queue of real-time tasks**, with a new deadline. -/
theorem Timely.queueRunning (h0 : k.current ≠ tidNull) {g : TcbData → TcbData}
    {s : Tasks Tid QId} (hx : (g (k.data k.current)).key.deadline ≠ none)
    (hm : ∀ u ∈ L q, (f u).deadline ≠ none)
    (hS : Sound { k.modifyTcb k.current g with toTasks := s } (Function.update L q
      ((k.modifyTcb k.current g).toTasks.queued k.current (L q))) ∅ ∅)
    (hs : ∀ u, (s.data u).key = ((k.modifyTcb k.current g).data u).key) :
    ∃ f', EdfNow f' (Kernel.runScheduled { k.modifyTcb k.current g with toTasks := s }) ∧
      Proper A f' := by
  set x := (g (k.data k.current)).key
  set f' := Function.update f k.current x with hf'
  have hself : f' k.current = x := Function.update_self _ _ _
  have hother : ∀ u, u ≠ k.current → f' u = f u := fun u hu => Function.update_of_ne hu _ _
  have hkey : ∀ u, ((k.modifyTcb k.current g).data u).key = f' u := fun u => by
    rw [k.data_modifyTcb]
    by_cases e : u = k.current
    · subst e
      rw [Function.update_self, hself]
    · rw [Function.update_of_ne e, hother u e]
      exact h.edf.data u
  have hmem : ∀ u ∈ L q, (f' u).deadline ≠ none := fun u hu => by
    rw [hother u fun e => hR.placed.out u (Or.inl e) q hu]
    exact hm u hu
  have h1 : Edf f' none { k.modifyTcb k.current g with toTasks := s } := by
    refine hS.edf (fun _ hu => absurd hu (Set.notMem_empty _)) (fun q' => ?_)
      (fun _ _ => Before.none_left _) fun u => (hs u).trans (hkey u)
    rw [Function.update_apply]
    split
    · exact isChain_queued hkey hmem (hself ▸ hx) (Edf.isChain_running h hR x q)
    · exact Edf.isChain_running h hR x q'
  refine ⟨f', h1.runScheduled ?_, fun u hu hprio => ?_⟩
  · rw [hother _ h0.symm]
    exact hR.null_deadline h.edf
  · by_cases e : u = k.current
    · rw [e, hself]
      exact hx
    · rw [hother u e] at hprio ⊢
      exact h.proper u hu hprio

/-- **`k_rt_tsk_set`** queues its caller by its deadline. -/
theorem Timely.kRtTskSet (h0 : k.current ≠ tidNull) (hp : k.pend k.current = none)
    (tv : Timeval) :
    Post (k.kRtTskSet tv) fun r => ∃ f', EdfNow f' r.1 ∧ Proper A f' := by
  unfold Kernel.kRtTskSet
  refine Ends.ite (fun _ => ⟨f, Edf.setErrno h.edf _, h.proper⟩) fun _ => ?_
  refine Ends.ite (fun _ => ⟨f, Edf.setErrno h.edf _, h.proper⟩) fun _ => ?_
  have hok := hR.task k.current
  have hrun := hR.current h0
  set g : TcbData → TcbData := fun d => { d with
    realTime := true
    tskPeriod := (tv.sec * 1000000 + tv.usec) % 2 ^ 32 / 500
    tskDeadline := add32 (add32 k.timerCount 1) ((tv.sec * 1000000 + tv.usec) % 2 ^ 32 / 500)
    prio := prioRt
    state := .ready }
  have h1 := hR.toSound.modify (t := k.current) (f := g) (Or.inl rfl)
    ⟨fun _ => ⟨0, rfl⟩, fun e => absurd e h0, fun _ => rfl, fun e => (by cases e),
      fun e => (by simp [g] at e), fun _ => hok.tid (by rw [hrun]; simp),
      fun e => (by cases e)⟩ (fun e => absurd hp e)
  have hdc := (congrFun (k.data_modifyTcb k.current g) k.current).trans (Function.update_self _ _ _)
  obtain ⟨s, h2, h3, h4, h5⟩ := h1.pushTail (t := k.current) (i := 0) rfl h0
    (fun u hu => absurd hu (Set.notMem_empty u)) (Or.inl (congrArg TcbData.state hdc))
    (readyAt_priority.mpr (congrArg TcbData.prio hdc))
  have hself := h5 (Or.inr (congrArg TcbData.state hdc))
  rw [hself, Set.sdiff_self] at h3
  rw [hself] at h4
  refine Ends.bind_ok (a := .ready 0) rfl (Ends.bind_ok h2 ?_)
  refine h.queueRunning hR h0 (g := g) (by simp [g, TcbData.key])
    (fun u hu => h.member hR.toSound hu) h3 fun u => ?_
  refine congrArg TcbData.key ((congrFun h4 u).trans ?_)
  rw [Function.update_apply]
  split
  next e => rw [e, hdc]
  · rfl

/-- **`k_rt_tsk_susp`** lets its caller sleep, in the order of the new deadlines. -/
theorem Timely.kRtTskSusp : Post k.kRtTskSusp fun r => ∃ f', EdfNow f' r.1 ∧ Proper A f' := by
  unfold Kernel.kRtTskSusp
  refine Ends.ite (fun _ => ⟨f, Edf.setErrno h.edf _, h.proper⟩) fun hrt => ?_
  have hrt' : (k.data k.current).realTime = true :=
    not_not.mp (fun e => hrt (Bool.eq_false_iff.mpr e))
  have hok := hR.task k.current
  have h0 : k.current ≠ tidNull := fun e => by
    rw [(hok.null e).2.1] at hrt'
    cases hrt'
  have hrun := hR.current h0
  set k₁ := k.setTaskState k.current .suspended
  set g : TcbData → TcbData := fun d => { { d with state := .suspended } with
    tskDeadline := k₁.nextDeadline d.tskDeadline d.tskPeriod }
  have h1 := hR.toSound.modify (t := k.current) (f := g)
    (Or.inl rfl) ⟨hok.prio, fun e => absurd e h0, hok.realTime, fun _ => hrt',
      fun e => (by simp [g] at e), fun _ => hok.tid (by rw [hrun]; simp),
      fun e => (by cases e)⟩ (fun e => (hR.pend _ e).2)
  have hdc := (congrFun (k.data_modifyTcb k.current g) k.current).trans (Function.update_self _ _ _)
  obtain ⟨s, h2, h3, h4⟩ := h1.pushTail_keep (t := k.current) (q := .suspend) rfl h0
    (fun u hu => absurd hu (Set.notMem_empty u)) (congrArg TcbData.state hdc) (Or.inr rfl)
    (fun m e => by cases e)
  have hk : k₁.modifyTcb k₁.current (fun d => { d with
      tskDeadline := k₁.nextDeadline d.tskDeadline d.tskPeriod }) = k.modifyTcb k.current g :=
    k.modifyTcb_modifyTcb k.current (fun d => { d with state := .suspended }) fun d => { d with
      tskDeadline := k₁.nextDeadline d.tskDeadline d.tskPeriod }
  change Ends ((k₁.modifyTcb k₁.current _).pushTail k.current .suspend >>= _) _ _
  rw [hk]
  rw [Set.sdiff_self] at h3
  refine Ends.bind_ok h2 ?_
  refine h.queueRunning hR h0 (g := g) ?_ (fun u hu => hR.sleeper h.edf hu) h3 fun u => ?_
  · simp [g, TcbData.key, hrt']
  · exact congrArg TcbData.key (congrFun h4 u)

end RealTime

end Rtx
