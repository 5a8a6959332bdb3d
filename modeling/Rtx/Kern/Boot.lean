/-
  File:      Rtx/Kern/Boot.lean
  Subject:   `k_rtx_init` leaves the kernel at rest.

  From the creation of the null task on the kernel keeps `Booting`: the tasks created so far are
  ready and in their queues, the others dormant, and nothing was sent yet. `Initial` is what is
  left when the first task runs.
-/
import Rtx.Kern.Rings
import Rtx.Kern.System

namespace Rtx

open Lib

variable {k k' k₁ : Kernel} {L L' : Lists} {C : Set Tid} {t : Tid} {info : TaskInit} {i : Fin 5}

/-- The kernel inside `k_tsk_init`, the tasks of `C` and the null task created. -/
structure Booting (k : Kernel) (L : Lists) (C : Set Tid) : Prop where
  sound : Sound k L ∅ ∅
  fresh : ∀ t, t ∉ C → t ≠ tidNull → (k.data t).state = .dormant
  idle : ∀ t, (k.data t).state = .dormant ∨ (k.data t).state = .ready
  waiting : ∀ m, L (.waiting m) = []
  pend : ∀ t, k.pend t = none
  noRt : NoRt k
  heap1 : ∃ h : Heap, h.pool = k.ram1 ∧ h.Inv iram1
  heap2 : ∃ h : Heap, h.pool = k.ram2 ∧ h.Inv iram2

/-- **The kernel when the first task runs.** -/
structure Initial (k : Kernel) (L : Lists) : Prop where
  rest : Rest k L
  top : Top k L
  noRt : NoRt k
  idle : ∀ t, (k.data t).state ≠ .blkRecv
  waiting : ∀ m, L (.waiting m) = []
  pend : ∀ t, k.pend t = none
  tasks : ∀ t, (k.mailbox (.task t)).active = false
  rings : ∃ h, Rings k h fun _ => []

/-! ## 1. One task -/

/-- The TCB of `t` is that of a task made from `info`. -/
structure Kernel.HasTask (k : Kernel) (t : Tid) (info : TaskInit) : Prop where
  alive : (k.data t).state ≠ .dormant
  tid : (k.data t).tid = t.val
  ptask : (k.data t).ptask = info.ptask
  prio : (k.data t).prio = info.prio
  priv : (k.data t).priv = info.priv

/-- At most the state of the TCB has changed. -/
theorem Kernel.HasTask.frame (h : k.HasTask t info) (hs : (k'.data t).state ≠ .dormant)
    (hd : { k'.data t with state := .dormant } = { k.data t with state := .dormant }) :
    k'.HasTask t info :=
  ⟨hs, (congrArg TcbData.tid hd).trans h.tid, (congrArg TcbData.ptask hd).trans h.ptask,
    (congrArg TcbData.prio hd).trans h.prio, (congrArg TcbData.priv hd).trans h.priv⟩

theorem Kernel.HasTask.same (h : k.HasTask t info) (hd : k'.data t = k.data t) :
    k'.HasTask t info :=
  h.frame (hd ▸ h.alive) (by rw [hd])

theorem Kernel.HasTask.of_tcb {a size : Nat} (hd : k.data t = info.tcb t a size) :
    k.HasTask t info := by
  refine ⟨?_, ?_, ?_, ?_, ?_⟩
  all_goals rw [hd]
  · exact fun e => by cases e
  all_goals rfl

/-- The allocator has taken memory from IRAM2, or none. -/
theorem Booting.setMem (h : Booting k L C) {m : Mem} (h1 : m.ram1 = k.ram1)
    (h2 : ∃ h : Heap, h.pool = m.ram2 ∧ h.Inv iram2) :
    Booting { k with ram1 := m.ram1, ram2 := m.ram2, errno := m.errno } L C :=
  ⟨h.sound.frame rfl rfl rfl (fun _ => rfl) rfl, h.fresh, h.idle, h.waiting, h.pend, h.noRt,
    h.heap1.imp fun _ hh => ⟨hh.1.trans h1.symm, hh.2⟩, h2⟩

/-- A task that gets no memory: only the base of its stack is written. -/
theorem Booting.refuse (h : Booting k L C) (t : Tid) (e : Errno) :
    Booting ((k.modifyTcb t fun d => { d with pspBase := none }).setErrno e) L C := by
  have hok := h.sound.task t
  have hs := h.sound.modify_home (t := t) (f := fun d => { d with pspBase := none }) rfl
    (fun _ => rfl) ⟨hok.prio, hok.null, hok.realTime, hok.suspended, hok.blocked, hok.tid,
      hok.header⟩ rfl
  have hd := k.data_modifyTcb t fun d => { d with pspBase := none }
  have hfield : ∀ {α : Type} (g : TcbData → α), (∀ d, g { d with pspBase := none } = g d) →
      ∀ u, g ((k.modifyTcb t fun d => { d with pspBase := none }).data u) = g (k.data u) := by
    intro α g hg u
    rw [hd, Function.update_apply]
    split
    next e => rw [hg, e]
    · rfl
  have hst := hfield TcbData.state fun _ => rfl
  exact ⟨hs.frame rfl rfl rfl (fun _ => rfl) rfl,
    fun u hu hu0 => (hst u).trans (h.fresh u hu hu0), fun u => (hst u).symm ▸ h.idle u,
    h.waiting, h.pend, fun u => (hfield TcbData.realTime (fun _ => rfl) u).trans (h.noRt u),
    h.heap1, h.heap2⟩

/-- A task that has got its stack goes to the end of its queue. -/
theorem Booting.enqueue (h : Booting k L C) (ht : t ∉ C) (h0 : t ≠ tidNull)
    (hi : info.prio = order2priority i.val) (a size : Nat) (bytes : Nat → UInt8) :
    ∃ k' L', Kernel.pushTail { k with
        toTasks := k.toTasks.modify t fun _ => info.tcb t a size, bytes := bytes } t (.ready i) =
          .ok k' ∧
      k'.mailbox = k.mailbox ∧ Booting k' L' (insert t C) ∧ k'.HasTask t info ∧
      ∀ u, u ≠ t → k'.data u = k.data u := by
  -- the new task is ready and in no queue
  have hheld : Sound k L (insert t ∅) ∅ :=
    ⟨h.sound.placed.hold (h.sound.placed.not_mem (Or.inl (h.fresh t ht h0))), h.sound.task,
      h.sound.pend, h.sound.inactive, h.sound.uart⟩
  have hmod := hheld.modify (f := fun _ => info.tcb t a size) (Or.inl (Set.mem_insert t _))
    (TaskInit.taskOk h0 ⟨i, hi⟩ a _) fun _ => rfl
  have hd := k.data_modifyTcb t fun _ => info.tcb t a size
  have hdt := (congrFun hd t).trans (Function.update_self _ _ _)
  have hnew : Sound { k with
      toTasks := k.toTasks.modify t fun _ => info.tcb t a size, bytes := bytes } L (insert t ∅) ∅ :=
    hmod.frame rfl rfl rfl (fun _ => rfl) rfl
  obtain ⟨s, h1, h2, h3, h4⟩ := hnew.pushTail
    (Set.mem_insert t _) h0 (fun u hu => absurd hu (Set.notMem_empty u))
    (Or.inl (congrArg TcbData.state hdt))
    (readyAt_priority.mpr ((congrArg TcbData.prio hdt).trans hi))
  have hself := h4 (Or.inr (congrArg TcbData.state hdt))
  rw [hself, Set.insert_sdiff_self_of_notMem (Set.notMem_empty t)] at h2
  rw [hself] at h3
  have hst : ∀ u, u ≠ t → s.data u = k.data u := fun u hu => by
    rw [h3, Function.update_of_ne hu]
    exact (congrFun hd u).trans (Function.update_of_ne hu _ _)
  have hsx : s.data t = info.tcb t a size := by
    rw [h3, Function.update_self]
    exact congrArg (fun d : TcbData => { d with state := TaskState.ready }) hdt
  refine ⟨_, _, h1, rfl, ⟨h2, fun u hu hu0 => ?_, fun u => ?_, fun m' => ?_, h.pend, fun u => ?_,
    h.heap1, h.heap2⟩, .of_tcb hsx, hst⟩
  · obtain ⟨hut, huC⟩ := not_or.mp hu
    exact (congrArg TcbData.state (hst u hut)).trans (h.fresh u huC hu0)
  · by_cases e : u = t
    · exact Or.inr (e ▸ congrArg TcbData.state hsx)
    · exact (congrArg TcbData.state (hst u e)).symm ▸ h.idle u
  · rw [Function.update_of_ne (by simp)]
    exact h.waiting m'
  · by_cases e : u = t
    · exact e ▸ congrArg TcbData.realTime hsx
    · exact (congrArg TcbData.realTime (hst u e)).trans (h.noRt u)

/-- Creating a task that is not there yet, and queueing it. -/
theorem Booting.create (h : Booting k L C) (ht : t ∉ C) (h0 : t ≠ tidNull)
    (hi : info.prio = order2priority i.val) :
    Post (k.kTskCreateNew info t) fun r => r.1.mailbox = k.mailbox ∧
      (r.2 = rtxErr ∧ Booting r.1 L C ∧ (∀ u, u ≠ t → r.1.data u = k.data u) ∨
        r.2 = rtxOk ∧ (r.1.data t).prio = info.prio ∧
          ∃ k' L', r.1.pushTail t (.ready i) = .ok k' ∧ k'.mailbox = k.mailbox ∧
            Booting k' L' (insert t C) ∧ k'.HasTask t info ∧
            ∀ u, u ≠ t → k'.data u = k.data u) := by
  refine (kTskCreateNew_spec k info t).imp fun r hr => ?_
  obtain ⟨r, x⟩ := r
  obtain ⟨power, k₁, ptr, -, hal, hr⟩ := hr
  obtain ⟨h₂, hp₂, hI₂⟩ := h.heap2
  obtain ⟨m, ptr', hal', hpool, hblk⟩ := mpoolAlloc_heap (k := k) .iram2 hI₂ hp₂ (power2 power)
  obtain ⟨rfl, rfl⟩ := Prod.mk.inj (Except.ok.inj (hal.symm.trans hal'))
  have hheap : ∃ h : Heap, h.pool = m.ram2 ∧ h.Inv iram2 := by
    obtain ⟨-, e⟩ | ⟨a, -, hI⟩ := hblk
    · exact ⟨h₂, hp₂.trans e.symm, hI₂⟩
    · exact ⟨_, rfl, hI⟩
  have hm := h.setMem (hpool .iram1 (by decide)) hheap
  obtain ⟨rfl, rfl, rfl⟩ | ⟨a, rfl, rfl, rfl⟩ := hr
  · refine ⟨rfl, Or.inl ⟨rfl, hm.refuse t .ENOMEM, fun u hu => ?_⟩⟩
    exact (congrFun (k.data_modifyTcb t fun d => { d with pspBase := none }) u).trans
      (Function.update_of_ne hu _ _)
  · refine ⟨rfl, Or.inr ⟨rfl, ?_, hm.enqueue ht h0 hi a (power2 power) _⟩⟩
    exact congrArg TcbData.prio ((congrFun (k.data_modifyTcb t fun _ =>
      info.tcb t a (power2 power)) t).trans (Function.update_self _ _ _))

/-! ## 2. The loops -/

theorem rtxErr_ne_rtxOk : rtxErr ≠ rtxOk := by decide

/-- **The tasks of `l` were created**, beside the null task. -/
structure Enrolled (k : Kernel) (L : Lists) (l : List (Tid × TaskInit)) : Prop
    extends Booting k L {t | t ∈ l.map Prod.fst} where
  holds : ∀ x ∈ (tidNull, Kernel.tskInitFirst) :: l, k.HasTask x.1 x.2

/-- One more task. -/
theorem Enrolled.create {l : List (Tid × TaskInit)} (h : Enrolled k L l) (ht : t ∉ l.map Prod.fst)
    (h0 : t ≠ tidNull) (hi : info.prio = order2priority i.val) :
    Post (k.kTskCreateNew info t) fun r => r.1.mailbox = k.mailbox ∧
      (r.2 = rtxErr ∧ Enrolled r.1 L l ∨
        r.2 = rtxOk ∧ (r.1.data t).prio = info.prio ∧
          ∃ k' L', r.1.pushTail t (.ready i) = .ok k' ∧ k'.mailbox = k.mailbox ∧
            Enrolled k' L' ((t, info) :: l)) := by
  have hne : ∀ x ∈ (tidNull, Kernel.tskInitFirst) :: l, x.1 ≠ t := by
    intro x hx e
    obtain rfl | hx := List.mem_cons.mp hx
    · exact h0 e.symm
    · exact ht (List.mem_map.mpr ⟨x, hx, e⟩)
  refine (h.toBooting.create ht h0 hi).imp fun r hr => ⟨hr.1, ?_⟩
  obtain ⟨-, ⟨e, h1, hd⟩ | ⟨e, hp, k', L', h1, hm, h2, hh, hd⟩⟩ := hr
  · exact Or.inl ⟨e, h1, fun x hx => (h.holds x hx).same (hd _ (hne x hx))⟩
  refine Or.inr ⟨e, hp, k', L', h1, hm, ?_, fun x hx => ?_⟩
  · have hset : insert t {u | u ∈ l.map Prod.fst} =
        {u | u ∈ ((t, info) :: l).map Prod.fst} := by
      ext u
      simp
    exact hset ▸ h2
  · obtain rfl | hx := List.mem_cons.mp hx
    · exact (h.holds _ List.mem_cons_self).same (hd _ h0.symm)
    obtain rfl | hx := List.mem_cons.mp hx
    · exact hh
    · have hx' := List.mem_cons_of_mem (tidNull, Kernel.tskInitFirst) hx
      exact (h.holds x hx').same (hd _ (hne x hx'))

/-- The loop over the system tasks. -/
theorem Enrolled.createSystemTasks {l : List (Tid × TaskInit)} (h : Enrolled k L l)
    (ts : List (Tid × TaskInit))
    (hts : ∀ x ∈ ts, x.1 ∉ l.map Prod.fst ∧ x.1 ≠ tidNull ∧
      ∃ i : Fin 5, x.2.prio = order2priority i.val)
    (hnd : (ts.map Prod.fst).Nodup) :
    Post (Kernel.createSystemTasks ts k) fun r => r.1.mailbox = k.mailbox ∧
      (r.2 = rtxOk → ∃ L', Enrolled r.1 L' (ts.reverse ++ l)) := by
  induction ts generalizing k L l with
  | nil => exact ⟨rfl, fun _ => ⟨L, h⟩⟩
  | cons x ts ih =>
      obtain ⟨t, info⟩ := x
      obtain ⟨hl, h0, i, hi⟩ := hts _ List.mem_cons_self
      rw [List.map_cons, List.nodup_cons] at hnd
      unfold Kernel.createSystemTasks
      refine Ends.bind (h.create hl h0 hi) fun r hr => ?_
      obtain ⟨k₁, x⟩ := r
      obtain ⟨hm, ⟨rfl, -⟩ | ⟨rfl, -, k₂, L', h1, hm', h2⟩⟩ := hr
      · exact Ends.ite (fun e => absurd e rtxErr_ne_rtxOk) fun _ =>
          ⟨hm, fun e => absurd e rtxErr_ne_rtxOk⟩
      refine Ends.ite (fun _ => ?_) fun e => absurd rfl e
      refine Ends.bind_ok (readyAt_priority.mpr hi) (Ends.bind_ok h1 ?_)
      refine (ih h2 (fun y hy => ?_) hnd.2).imp fun r hr => ⟨hr.1.trans hm', fun e => ?_⟩
      · obtain ⟨hyl, hy'⟩ := hts y (List.mem_cons_of_mem _ hy)
        refine ⟨fun hin => ?_, hy'⟩
        obtain e | hin := List.mem_cons.mp hin
        · exact hnd.1 (List.mem_map.mpr ⟨y, hy, e⟩)
        · exact hyl hin
      · rw [List.reverse_cons, List.append_assoc]
        exact hr.2 e

/-- The boot task `i` of `ts` has a TCB, or there was no memory for it at its turn. -/
def Enlisted (k : Kernel) (j : Nat) (ts : List TaskInit) (l : List (Tid × TaskInit)) (i : Nat)
    (info : TaskInit) (t : Tid) : Prop :=
  (t, info) ∈ l ∨ t ∉ l.map Prod.fst ∧ ∃ kᵢ r, Kernel.createBootTasks j (ts.take i) k = .ok kᵢ ∧
    kᵢ.kTskCreateNew info t = .ok (r, rtxErr)

/-- A round of the loop: the task is dropped without memory, or queued. -/
theorem createBootTasks_cons {k₂ : Kernel} {j : Nat} (ht : t.val = j) {r : Int}
    (hx : k.kTskCreateNew info t = .ok (k₁, r))
    (h2 : r ≠ rtxOk ∧ k₂ = k₁ ∨
      r = rtxOk ∧ (readyAt (priority2order (k₁.data t).prio) >>= k₁.pushTail t) = .ok k₂)
    (ts : List TaskInit) : Kernel.createBootTasks j (info :: ts) k =
      Kernel.createBootTasks (j + 1) ts k₂ := by
  have hslot : tcbAt j = .ok t := by
    subst ht
    unfold tcbAt
    rw [dif_pos t.isLt]
  rw [Kernel.createBootTasks, bind_of_ok hslot, bind_of_ok hx]
  obtain ⟨hr, rfl⟩ | ⟨rfl, h2⟩ := h2
  · exact if_neg hr
  · refine (if_pos rfl).trans ?_
    obtain ⟨q, hq, h3⟩ := bind_eq_ok.mp h2
    rw [show readyAt (priority2order (k₁.tcb t).prio) = .ok q from hq]
    exact bind_of_ok h3

/-- Some of the loop over the boot tasks is behind it. -/
theorem Enlisted.later {l' : List (Tid × TaskInit)} {info' : TaskInit} {ts : List TaskInit}
    {j i : Nat} {u : Tid} (h : Enlisted k' (j + 1) ts l' i info u)
    (hk : ∀ ts, Kernel.createBootTasks j (info' :: ts) k = Kernel.createBootTasks (j + 1) ts k') :
    Enlisted k j (info' :: ts) l' (i + 1) info u := by
  obtain h | ⟨h, kᵢ, r, h1, h2⟩ := h
  · exact Or.inl h
  · exact Or.inr ⟨h, kᵢ, r, (hk (ts.take i)).trans h1, h2⟩

/-- What the loop over the boot tasks leaves, from slot `j` on. -/
structure BootLoop (k : Kernel) (l : List (Tid × TaskInit)) (j : Nat) (ts : List TaskInit)
    (l' : List (Tid × TaskInit)) : Prop where
  old : ∀ x ∈ l, x ∈ l'
  new : ∀ x ∈ l', x ∈ l ∨ j ≤ x.1.val
  each : ∀ i (hi : i < ts.length) (t : Tid), t.val = j + i → Enlisted k j ts l' i ts[i] t

/-- One more round in front. -/
theorem BootLoop.cons {l l₂ l' : List (Tid × TaskInit)} {ts : List TaskInit}
    (h : BootLoop k' l₂ (t.val + 1) ts l')
    (hk : ∀ ts, Kernel.createBootTasks t.val (info :: ts) k =
      Kernel.createBootTasks (t.val + 1) ts k')
    (hold : ∀ x ∈ l, x ∈ l₂) (hnew : ∀ x ∈ l₂, x ∈ l ∨ t.val ≤ x.1.val)
    (hhead : Enlisted k t.val (info :: ts) l' 0 info t) :
    BootLoop k l t.val (info :: ts) l' := by
  refine ⟨fun x hx => h.old x (hold x hx), fun x hx => ?_, fun i hi u hu => ?_⟩
  · obtain hx | hx := h.new x hx
    · exact hnew x hx
    · exact Or.inr ((Nat.le_succ _).trans hx)
  · cases i with
    | zero =>
        obtain rfl : u = t := Fin.ext hu
        exact hhead
    | succ i =>
        refine (h.each i (Nat.lt_of_succ_lt_succ hi) u ?_).later hk
        omega

/-- The loop over the boot tasks. -/
theorem Enrolled.createBootTasks {l : List (Tid × TaskInit)} {ts : List TaskInit} {j : Nat}
    (h : Enrolled k L l) (hj : 1 ≤ j) (hlen : j + ts.length ≤ 13)
    (hl : ∀ t : Tid, j ≤ t.val → t.val ≤ 12 → t ∉ l.map Prod.fst)
    (hts : ∀ x ∈ ts, ∃ i : Fin 5, x.prio = order2priority i.val) :
    Post (Kernel.createBootTasks j ts k) fun k' => k'.mailbox = k.mailbox ∧
      ∃ L' l', Enrolled k' L' l' ∧ BootLoop k l j ts l' := by
  induction ts generalizing k L l j with
  | nil => exact ⟨rfl, L, l, h, fun _ => id, fun _ => Or.inl, fun i hi => absurd hi (by simp)⟩
  | cons info ts ih =>
      obtain ⟨i, hi⟩ := hts _ List.mem_cons_self
      rw [List.length_cons] at hlen
      obtain ⟨t, rfl⟩ : ∃ t : Tid, t.val = j := ⟨⟨j, by omega⟩, rfl⟩
      have h0 : t ≠ tidNull := fun e => by
        subst e
        exact absurd hj (by decide)
      have hfree := hl t le_rfl (by omega)
      have hts' : ∀ x ∈ ts, ∃ i : Fin 5, x.prio = order2priority i.val := fun x hx =>
        hts x (List.mem_cons_of_mem _ hx)
      cases hx : k.kTskCreateNew info t with
      | error f =>
          have hslot : tcbAt t.val = .ok t := by unfold tcbAt; rw [dif_pos t.isLt]
          rw [Kernel.createBootTasks, bind_of_ok hslot, hx]
          exact True.intro
      | ok r =>
          obtain ⟨k₁, r⟩ := r
          obtain ⟨hm, ⟨rfl, h1⟩ | ⟨rfl, hp, k₂, L₂, h1, hm₂, h2⟩⟩ := (h.create hfree h0 hi).of_ok hx
          · -- no memory: the slot stays free
            have hk := createBootTasks_cons (j := t.val) rfl hx (Or.inl ⟨rtxErr_ne_rtxOk, rfl⟩)
            rw [hk ts]
            refine (ih h1 (by omega) (by omega) (fun u hu => hl u (by omega)) hts').imp
              fun k' hk' => ?_
            obtain ⟨hm', L', l', h', hb⟩ := hk'
            refine ⟨hm'.trans hm, L', l', h', hb.cons hk (fun _ => id) (fun _ => Or.inl) ?_⟩
            refine Or.inr ⟨fun hin => ?_, k, k₁, rfl, hx⟩
            obtain ⟨x, hx, e⟩ := List.mem_map.mp hin
            obtain hx | hx := hb.new x hx
            · exact hfree (List.mem_map.mpr ⟨x, hx, e⟩)
            · rw [e] at hx
              exact absurd hx (Nat.not_succ_le_self _)
          · have hpush : (readyAt (priority2order (k₁.data t).prio) >>= k₁.pushTail t) = .ok k₂ :=
              (bind_of_ok (readyAt_priority.mpr (hp.trans hi))).trans h1
            have hk := createBootTasks_cons (j := t.val) rfl hx (Or.inr ⟨rfl, hpush⟩)
            rw [hk ts]
            refine (ih h2 (by omega) (by omega) (fun u hu hu' hin => ?_) hts').imp
              fun k' hk' => ?_
            · obtain e | hin := List.mem_cons.mp hin
              · rw [e] at hu
                exact absurd hu (Nat.not_succ_le_self _)
              · exact hl u (by omega) hu' hin
            obtain ⟨hm', L', l', h', hb⟩ := hk'
            refine ⟨hm'.trans hm₂, L', l', h', hb.cons hk (fun x => List.mem_cons_of_mem _)
              (fun x hx => ?_) (Or.inl (hb.old _ List.mem_cons_self))⟩
            obtain rfl | hx := List.mem_cons.mp hx
            · exact Or.inr le_rfl
            · exact Or.inl hx

/-! ## 3. The UART mailbox -/

/-- `UART_MAILBOX` gets its ring in IRAM1. -/
theorem Booting.createUartMailbox (h : Booting k L C) :
    Post k.createUartMailbox fun r => r.2 = rtxOk → Booting r.1 L C ∧ r.1.data = k.data ∧
      ∃ a, a + uartMbxSize ≤ iram1.start + iram1.size ∧
        r.1.mailbox = Function.update k.mailbox .uart ⟨true, Mb.create a uartMbxSize⟩ := by
  obtain ⟨h₁, hp₁, hI₁⟩ := h.heap1
  obtain ⟨h₂, hp₂, hI₂⟩ := h.heap2
  obtain ⟨m, ptr, hal, hpool, hblk⟩ := mpoolAlloc_heap (k := k) .iram1 hI₁ hp₁ uartMbxSize
  have hram2 : m.ram2 = k.ram2 := hpool .iram2 (by decide)
  unfold Kernel.createUartMailbox
  refine Ends.bind_ok hal ?_
  obtain ⟨rfl, -⟩ | ⟨a, rfl, hheap⟩ := hblk
  · exact fun e => absurd e rtxErr_ne_rtxOk
  intro _
  have hin := (hheap.safe.inside (a, uartMbxSize) List.mem_cons_self).2
  refine ⟨?_, rfl, a, (Nat.add_le_add_left (le_blockBytes _) a).trans hin, rfl⟩
  have hq : k.queue (.waiting .uart) = ⟨none, none, 0⟩ := by
    rw [(h.sound.placed.rep.chain (.waiting .uart)).queue_eq, h.waiting]
    rfl
  have hself : Function.update k.queue (.waiting .uart) ⟨none, none, 0⟩ = k.queue := by
    rw [← hq]
    exact Function.update_eq_self _ _
  refine ⟨⟨h.sound.placed.frame rfl hself, h.sound.task, h.sound.pend, fun m' _ => h.waiting m',
    h.sound.uart⟩, h.fresh, h.idle, h.waiting, h.pend, h.noRt, ⟨_, rfl, hheap⟩,
    ⟨h₂, hp₂.trans hram2.symm, hI₂⟩⟩


/-! ## 4. `k_tsk_init` -/

/-- What `k_tsk_init` finds: nothing but the memory is set up. -/
structure Blank (k : Kernel) : Prop where
  tcb : ∀ t, (k.tcb t).next = none ∧ (k.tcb t).state = .dormant ∧ (k.tcb t).prio = prioRt ∧
    (k.tcb t).realTime = false
  queue : ∀ q, k.queue q = ⟨none, none, 0⟩
  pend : ∀ t, k.pend t = none
  mailbox : ∀ m, (k.mailbox m).active = false
  uart : k.uartMailboxCollect = false
  heap1 : ∃ h : Heap, h.pool = k.ram1 ∧ h.Inv iram1
  heap2 : ∃ h : Heap, h.pool = k.ram2 ∧ h.Inv iram2

/-- The null task is created first; it is in no queue. -/
theorem Blank.createNull (h : Blank k) :
    Post (k.kTskCreateNew Kernel.tskInitFirst tidNull) fun r => r.2 = rtxOk →
      Booting r.1 (fun _ => []) ∅ ∧ r.1.mailbox = k.mailbox ∧
        r.1.HasTask tidNull Kernel.tskInitFirst := by
  refine (kTskCreateNew_spec k Kernel.tskInitFirst tidNull).imp fun r hr => ?_
  obtain ⟨r, x⟩ := r
  obtain ⟨power, k₁, ptr, -, hal, hr⟩ := hr
  obtain ⟨h₂, hp₂, hI₂⟩ := h.heap2
  obtain ⟨m, ptr', hal', hpool, hblk⟩ := mpoolAlloc_heap (k := k) .iram2 hI₂ hp₂ (power2 power)
  obtain ⟨rfl, rfl⟩ := Prod.mk.inj (Except.ok.inj (hal.symm.trans hal'))
  have hram1 : m.ram1 = k.ram1 := hpool .iram1 (by decide)
  obtain ⟨h₁, hp₁, hI₁⟩ := h.heap1
  obtain ⟨-, rfl, -⟩ | ⟨a, rfl, rfl, rfl⟩ := hr
  · exact fun e => absurd e rtxErr_ne_rtxOk
  intro _
  obtain ⟨e, -⟩ | ⟨a', e, hheap⟩ := hblk
  · cases e
  obtain rfl := Option.some.inj e
  have hd := k.data_modifyTcb tidNull fun _ => Kernel.tskInitFirst.tcb tidNull a (power2 power)
  have hother : ∀ u, u ≠ tidNull → (k.modifyTcb tidNull fun _ =>
      Kernel.tskInitFirst.tcb tidNull a (power2 power)).data u = k.data u := fun u hu => by
    rw [hd, Function.update_of_ne hu]
  have hnull := (congrFun hd tidNull).trans (Function.update_self _ _ _)
  refine ⟨⟨⟨⟨⟨fun q => ⟨?_, ?_, ?_, linked_nil, List.nodup_nil⟩, fun _ _ _ hm =>
    absurd hm List.not_mem_nil, fun u _ _ => ?_⟩, fun u hu _ => ?_, fun _ _ _ => List.not_mem_nil⟩,
    fun u => ?_, fun u hu => absurd (h.pend u) hu, fun _ _ => rfl, h.uart⟩, fun u _ hu => ?_,
    fun u => ?_, fun _ => rfl, h.pend, fun u => ?_, ⟨h₁, hp₁.trans hram1.symm, hI₁⟩,
    ⟨_, rfl, hheap⟩⟩, rfl, .of_tcb hnull⟩
  · exact congrArg Queue.head (h.queue q)
  · exact congrArg Queue.tail (h.queue q)
  · exact congrArg Queue.currentSize (h.queue q)
  · refine Eq.trans ?_ (h.tcb u).1
    exact Tasks.modify_next k.toTasks tidNull u fun _ =>
      Kernel.tskInitFirst.tcb tidNull a (power2 power)
  · refine inPlace_out (Or.inl ?_) fun _ => List.not_mem_nil
    exact (congrArg TcbData.state (hother u hu)).trans (h.tcb u).2.1
  · by_cases e : u = tidNull
    · subst e
      exact (congrArg (TaskOk tidNull) hnull).mpr ⟨fun e => absurd rfl e,
        fun _ => ⟨rfl, rfl, Or.inl rfl⟩, fun e => (by cases e), fun e => (by cases e), fun _ => rfl,
        fun _ => rfl, fun e => (by cases e)⟩
    · obtain ⟨-, hs, hp, hrt⟩ := h.tcb u
      have hs' : (k.data u).state = .dormant := hs
      have hrt' : (k.data u).realTime = false := hrt
      refine (congrArg (TaskOk u) (hother u e)).mpr ⟨fun _ => ⟨0, hp⟩, fun e' => absurd e' e,
        fun e' => ?_, fun e' => ?_, fun _ => hrt', fun e' => absurd hs' e', fun e' => ?_⟩
      · rw [hrt'] at e'
        cases e'
      · rw [hs'] at e'
        cases e'
      · rw [hs'] at e'
        cases e'
  · exact (congrArg TcbData.state (hother u hu)).trans (h.tcb u).2.1
  · by_cases e : u = tidNull
    · subst e
      exact Or.inr (congrArg TcbData.state hnull)
    · exact Or.inl ((congrArg TcbData.state (hother u e)).trans (h.tcb u).2.1)
  · by_cases e : u = tidNull
    · subst e
      exact congrArg TcbData.realTime hnull
    · exact (congrArg TcbData.realTime (hother u e)).trans (h.tcb u).2.2.2

/-- The first task runs. -/
theorem Booting.initial (h : Booting k L C) {a : Nat}
    (ha : a + uartMbxSize ≤ iram1.start + iram1.size)
    (hm : k.mailbox .uart = ⟨true, Mb.create a uartMbxSize⟩)
    (ht : ∀ t, (k.mailbox (.task t)).active = false) : ∃ L', Initial k.runScheduled L' := by
  obtain ⟨s, t, L', h1, h2, h3, h4⟩ := h.sound.runScheduled
  obtain ⟨h₂, hp₂, hI₂⟩ := h.heap2
  rw [h1]
  refine ⟨L', h2, h3, h4.realTime.noRt h.noRt, fun u hu => ?_, fun m => ?_, h.pend, ht, h₂, hp₂,
    hI₂, fun m hm' => ?_, fun _ _ => rfl, fun u hu => ?_, fun u _ hu => ?_, fun _ => ?_⟩
  · have := h4.recv u hu
    rcases h.idle u with e | e <;> rw [e] at this <;> cases this
  · exact (h4.waiting m).trans (h.waiting m)
  · cases m with
    | uart =>
        change (k.mailbox .uart).memoryBuffer.Rep _ _
        rw [hm]
        refine Mb.Rep.create (by decide) ?_ _
        have h5 : iram1.start + iram1.size = 0x10008000 := rfl
        have h6 : uartMbxSize = 0x80 := rfl
        omega
    | task u =>
        have : (k.mailbox (.task u)).active = true := hm'
        rw [ht u] at this
        cases this
  · have : (k.mailbox (.task u)).active = true := hu
    rw [ht u] at this
    cases this
  · have : (k.mailbox (.task u)).active = true := hu
    rw [ht u] at this
    cases this
  · change (k.mailbox .uart).memoryBuffer.memoryEnd ≤ _
    rw [hm]
    have h5 : iram1.start + iram1.size = 0x10008000 := rfl
    have h6 : iram2.start = 0x2007C000 := rfl
    simp only [Mb.create]
    omega

/-- The queues of the tasks are cleared. -/
theorem Blank.clear (h : Blank k) : Blank { k with
    queue := fun q =>
      match q with
      | .ready _ | .suspend => ⟨none, none, 0⟩
      | .waiting m => k.queue (.waiting m)
    timerCount := 0 } :=
  ⟨h.tcb, fun q => by cases q <;> first | rfl | exact h.queue _, h.pend, h.mailbox, h.uart,
    h.heap1, h.heap2⟩

/-- What `k_tsk_init` has set up when it comes to the boot tasks. -/
structure Furnished (k : Kernel) (L : Lists) : Prop where
  enrolled : Enrolled k L Kernel.systemTasks.reverse
  uart : ∃ a, a + uartMbxSize ≤ iram1.start + iram1.size ∧
    k.mailbox .uart = ⟨true, Mb.create a uartMbxSize⟩
  tasks : ∀ t, (k.mailbox (.task t)).active = false

/-- **`k_tsk_init`** comes to the boot tasks in a state that does not depend on them. -/
theorem Blank.furnished (h : Blank k) {tasks : List TaskInit}
    (hk : k.kTskInit tasks = .ok (k', rtxOk)) : tasks.length ≤ maxTasks - 3 ∧
      ∃ k₀ L, Furnished k₀ L ∧ ∀ ts : List TaskInit, ts.length ≤ maxTasks - 3 → k.kTskInit ts =
        (Kernel.createBootTasks 1 ts k₀ >>= fun k => .ok (k.runScheduled, rtxOk)) := by
  have hok : ∀ {k₁ : Kernel} {r : Int} {x : Except Fault (Kernel × Int)},
      (if r ≠ rtxOk then .ok (k₁, rtxErr) else x) = .ok (k', rtxOk) →
        r = rtxOk ∧ x = .ok (k', rtxOk) := by
    intro k₁ r x hx
    split at hx
    · cases hx
    next hr => exact ⟨not_not.mp hr, hx⟩
  unfold Kernel.kTskInit at hk
  dsimp only at hk
  split at hk
  · cases hk
  next hlen =>
  obtain ⟨⟨k₁, r₁⟩, h1, hk⟩ := bind_eq_ok.mp hk
  obtain ⟨rfl, hk⟩ := hok hk
  obtain ⟨⟨k₂, r₂⟩, h2, hk⟩ := bind_eq_ok.mp hk
  obtain ⟨rfl, hk⟩ := hok hk
  obtain ⟨⟨k₃, r₃⟩, h3, hk⟩ := bind_eq_ok.mp hk
  obtain ⟨rfl, -⟩ := hok hk
  obtain ⟨hb1, hm1, hh1⟩ := h.clear.createNull.of_ok h1 rfl
  have he1 : Enrolled (k₁.setCurrent tidNull) (fun _ => []) [] := by
    refine ⟨⟨hb1.sound.setCurrent _, fun t _ => hb1.fresh t (Set.notMem_empty t), hb1.idle,
      hb1.waiting, hb1.pend, hb1.noRt, hb1.heap1, hb1.heap2⟩, fun x hx => ?_⟩
    obtain rfl := List.mem_singleton.mp hx
    exact hh1.same rfl
  obtain ⟨hm2, hr⟩ := (he1.createSystemTasks Kernel.systemTasks (by decide) (by decide)).of_ok h2
  obtain ⟨L₂, he2⟩ := hr rfl
  rw [List.append_nil] at he2
  obtain ⟨hb3, hd3, hm3⟩ := (he2.toBooting.createUartMailbox).of_ok h3 rfl
  obtain ⟨a, ha, hm3⟩ := hm3
  refine ⟨Nat.le_of_not_lt hlen, k₃, L₂, ⟨⟨hb3, fun x hx => ?_⟩, ⟨a, ha, ?_⟩, fun t => ?_⟩,
    fun ts hts => ?_⟩
  · exact (he2.holds x hx).same (congrFun hd3 _)
  · refine (congrFun hm3 _).trans ?_
    rw [Function.update_self]
  · refine (congrArg Mailbox.active (congrFun hm3 (.task t))).trans ?_
    rw [Function.update_of_ne (by simp)]
    exact (congrArg (fun f => (f (.task t)).active) (hm2.trans hm1)).trans (h.mailbox _)
  · unfold Kernel.kTskInit
    dsimp only
    rw [if_neg (Nat.not_lt.mpr hts), bind_of_ok h1]
    dsimp only
    rw [if_neg (not_not.mpr rfl), bind_of_ok h2]
    dsimp only
    rw [if_neg (not_not.mpr rfl), bind_of_ok h3]
    rfl

/-- The boot tasks get slots of their own, and the first task runs. -/
theorem Furnished.createBootTasks (h : Furnished k L) {ts : List TaskInit} (hlen : ts.length ≤ 12)
    (hts : ∀ x ∈ ts, ∃ i : Fin 5, x.prio = order2priority i.val) :
    Post (Kernel.createBootTasks 1 ts k) fun k' => ∃ L' l', Enrolled k' L' l' ∧
      BootLoop k Kernel.systemTasks.reverse 1 ts l' ∧ ∃ L'', Initial k'.runScheduled L'' := by
  have hfree : ∀ t : Tid, 1 ≤ t.val → t.val ≤ 12 → t ∉ Kernel.systemTasks.reverse.map Prod.fst := by
    decide
  refine (h.enrolled.createBootTasks le_rfl (by omega) hfree hts).imp fun k' hk' => ?_
  obtain ⟨hm, L', l', he, hb⟩ := hk'
  obtain ⟨a, ha, hu⟩ := h.uart
  refine ⟨L', l', he, hb, he.initial ha ?_ fun t => ?_⟩
  · rw [hm]
    exact hu
  · rw [hm]
    exact h.tasks t

/-- **`k_tsk_init`** leaves the kernel at rest. -/
theorem Blank.kTskInit (h : Blank k) {tasks : List TaskInit} (hlen : tasks.length ≤ 12)
    (hts : ∀ x ∈ tasks, ∃ i : Fin 5, x.prio = order2priority i.val) :
    Post (k.kTskInit tasks) fun r => r.2 = rtxOk → ∃ L, Initial r.1 L := by
  refine Ends.imp Ends.returned fun r hr => ?_
  obtain ⟨k', x⟩ := r
  intro e
  obtain rfl : x = rtxOk := e
  obtain ⟨hle, k₀, L, h0, heq⟩ := h.furnished hr
  obtain ⟨k₄, h4, e⟩ := bind_eq_ok.mp ((heq tasks hle).symm.trans hr)
  obtain ⟨-, -, -, -, hi⟩ := (h0.createBootTasks hlen hts).of_ok h4
  obtain rfl : k₄.runScheduled = k' := congrArg Prod.fst (Except.ok.inj e)
  exact hi

/-- What `k_mem_init` leaves at reset. -/
theorem blank_memInit (m : Mem) (bytes : Nat → UInt8) :
    let m' := (kMemInit ((Kernel.reset m bytes).setErrno .zero).mem buddy).1
    Blank { (Kernel.reset m bytes).setErrno .zero with
      ram1 := m'.ram1, ram2 := m'.ram2, errno := m'.errno } :=
  have hI := Pools.Inv.init ((Kernel.reset m bytes).setErrno .zero).mem
  ⟨fun _ => ⟨rfl, rfl, rfl, rfl⟩, fun _ => rfl, fun _ => rfl, fun _ => rfl, rfl,
    ⟨_, rfl, hI .iram1⟩, ⟨_, rfl, hI .iram2⟩⟩

/-- The priorities of the boot tasks have ready queues. -/
theorem bootPrio {tasks : List TaskInit}
    (hprio : ∀ t ∈ tasks, t.prio ∈ [high, medium, low, lowest]) :
    ∀ x ∈ tasks, ∃ i : Fin 5, x.prio = order2priority i.val := by
  intro x hx
  have := hprio x hx
  generalize x.prio = p at this
  simp only [List.mem_cons, List.not_mem_nil, or_false] at this
  rcases this with rfl | rfl | rfl | rfl
  · exact ⟨1, rfl⟩
  · exact ⟨2, rfl⟩
  · exact ⟨3, rfl⟩
  · exact ⟨4, rfl⟩

/-- **The state in which the tasks find the kernel.** -/
theorem Booted.initial (h : Booted k) : ∃ L, Initial k L := by
  obtain ⟨m, bytes, tasks, hk, hlen, hprio⟩ := h
  have hpost : Post ((Kernel.reset m bytes).kRtxInit buddy tasks) fun r =>
      r.2 = rtxOk → ∃ L, Initial r.1 L := by
    unfold Kernel.kRtxInit
    refine Ends.ite (fun _ e => absurd e rtxErr_ne_rtxOk) fun _ => ?_
    refine Ends.ite (fun _ e => absurd e rtxErr_ne_rtxOk) fun _ => ?_
    refine Ends.bind ((blank_memInit m bytes).kTskInit hlen (bootPrio hprio)) fun r hr => ?_
    refine Ends.ite (fun _ e => absurd e rtxErr_ne_rtxOk) fun hx _ => hr (not_not.mp hx)
  exact hpost.of_ok hk rfl


/-! ## 5. A boot to look at -/

/-- Memory that was never set up. -/
def blankMem : Mem :=
  let pool : Pool := ⟨fun _ => 0, fun _ => ⟨none, none⟩, fun _ => ⟨none, none⟩⟩
  ⟨pool, pool, .zero⟩

/-- What `k_rtx_init` makes of it. -/
def bootBlank (tasks : List TaskInit) : Except Fault (Kernel × Int) :=
  (Kernel.reset blankMem fun _ => 0).kRtxInit buddy tasks

/-- The kernel after it, if it succeeds. -/
def bootKernel (tasks : List TaskInit) : Kernel :=
  match bootBlank tasks with
  | .ok (k, _) => k
  | .error _ => Kernel.reset blankMem fun _ => 0

theorem bootBlank_eq {tasks : List TaskInit}
    (h : (bootBlank tasks).toOption.map Prod.snd = some rtxOk) :
    bootBlank tasks = .ok (bootKernel tasks, rtxOk) := by
  unfold bootKernel
  cases hb : bootBlank tasks with
  | error f =>
      rw [hb] at h
      cases h
  | ok r =>
      rw [hb] at h
      obtain ⟨k, r⟩ := r
      obtain rfl : r = rtxOk := Option.some.inj h
      rfl

theorem bootKernel_booted {tasks : List TaskInit} (hlen : tasks.length ≤ 12)
    (hts : ∀ t ∈ tasks, t.prio ∈ [high, medium, low, lowest])
    (h : (bootBlank tasks).toOption.map Prod.snd = some rtxOk) : Booted (bootKernel tasks) :=
  ⟨blankMem, fun _ => 0, tasks, bootBlank_eq h, hlen, hts⟩

/-- Three boot tasks of the lowest priority, beside the system tasks. -/
def threeTasks : List TaskInit := List.replicate 3 ⟨5, procStackSize, lowest, 0⟩

theorem booted_threeTasks : Booted (bootKernel threeTasks) :=
  bootKernel_booted (by decide) (by decide) (by decide +kernel)

end Rtx
