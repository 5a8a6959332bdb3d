/-
  File:      Rtx/Kern/Rest.lean
  Subject:   The kernel at rest, and what the scheduler does to it.

  `Rest k L` is the invariant of the kernel between two events: the tasks are where their states
  say, the running one is in no list (`Placed`), and the fields of every TCB fit together
  (`TaskOk`). `Sound k L H X` is what is left of it inside a call. `Top k L` says that no ready
  task is of higher priority than the running one.

  `Next L t L'` is the scheduler on lists: the task it takes and what it leaves.
-/
import Rtx.Kern.Placement
import Rtx.Kern.Task

namespace Rtx

open Lib

/-! ## 1. Priorities and ready queues -/

theorem readyAt_eq_ok {order : Int} {q : QId} :
    readyAt order = .ok q ↔ ∃ i : Fin 5, order = i.val ∧ q = .ready i := by
  unfold readyAt
  split
  next h =>
    refine ⟨fun e => ⟨⟨order.toNat, by omega⟩, (Int.toNat_of_nonneg h.1).symm,
      (Except.ok.inj e).symm⟩, fun ⟨i, h1, h2⟩ => ?_⟩
    subst h1 h2
    rfl
  next h =>
    refine ⟨fun e => (by cases e), fun ⟨i, h1, _⟩ => absurd ⟨?_, ?_⟩ h⟩
    · omega
    · omega

/-- The ready queue of a priority is the one whose priority it is. -/
theorem readyAt_priority {p : Nat} {i : Fin 5} :
    readyAt (priority2order p) = .ok (.ready i) ↔ p = order2priority i.val := by
  have hinj : (∃ j : Fin 5, priority2order p = j.val ∧ QId.ready i = .ready j) ↔
      priority2order p = i.val := by
    refine ⟨fun ⟨j, h1, h2⟩ => by rw [h1, QId.ready.inj h2], fun h => ⟨i, h, rfl⟩⟩
  rw [readyAt_eq_ok, hinj]
  refine ⟨fun h => ?_, fun h => ?_⟩
  · unfold priority2order at h
    split at h
    next e => rw [e, ← h]; rfl
    split at h
    next e => rw [e, ← h]; rfl
    split at h
    next e => rw [e, ← h]; rfl
    split at h
    next e => rw [e, ← h]; rfl
    split at h
    next e => rw [e, ← h]; rfl
    split at h
    · simp only [nullIndex] at h
      omega
    · omega
  · rw [h]
    clear hinj h
    revert i
    decide

/-- A smaller index is a higher priority. -/
theorem order2priority_le (i j : Fin 5) :
    order2priority i.val ≤ order2priority j.val ↔ i ≤ j := by
  revert i j
  decide

theorem order2priority_lt_null (i : Fin 5) : order2priority i.val < prioNull := by
  revert i
  decide

/-! ## 2. The invariant -/

/-- The fields of a TCB fit together. -/
structure TaskOk (t : Tid) (d : TcbData) : Prop where
  prio : t ≠ tidNull → ∃ i : Fin 5, d.prio = order2priority i.val
  null : t = tidNull → d.prio = prioNull ∧ d.realTime = false ∧
    (d.state = .ready ∨ d.state = .running)
  realTime : d.realTime = true → d.prio = prioRt
  suspended : d.state = .suspended → d.realTime = true
  blocked : d.state = .blkSend ∨ d.state = .blkRecv → d.realTime = false
  tid : d.state ≠ .dormant → d.tid = t.val
  header : d.state = .blkSend → d.messageHeader ≠ none

/-- What holds also inside a call: the tasks of `H` are in the kernel's hands, those of `X` may have
    a stale successor. -/
structure Sound (k : Kernel) (L : Lists) (H X : Set Tid) : Prop where
  placed : Placed k.toTasks L H X
  task : ∀ t, TaskOk t (k.data t)
  pend : ∀ t, k.pend t ≠ none → t ≠ tidNull ∧ (k.data t).realTime = false
  inactive : ∀ m, (k.mailbox m).active = false → L (.waiting m) = []
  uart : k.uartMailboxCollect = false

/-- **The kernel at rest**, its queues holding the lists `L`. -/
structure Rest (k : Kernel) (L : Lists) : Prop extends Sound k L {k.current} ∅ where
  current : k.current ≠ tidNull → (k.data k.current).state = .running

theorem pair_sdiff_left {a b : Tid} (h : a ≠ b) : insert a {b} \ {a} = ({b} : Set Tid) :=
  Set.insert_sdiff_self_of_notMem h

theorem pair_sdiff_right {a b : Tid} (h : a ≠ b) : insert a {b} \ {b} = ({a} : Set Tid) := by
  rw [Set.pair_comm]
  exact pair_sdiff_left h.symm

/-- No ready task is of higher priority than the running task. -/
def Top (k : Kernel) (L : Lists) : Prop :=
  ∀ i t, t ∈ L (.ready i) → (k.data k.current).prio ≤ order2priority i.val

/-- No task is a real-time task. -/
def NoRt (k : Kernel) : Prop := ∀ t, (k.data t).realTime = false

theorem Placed.frame {s s' : Tasks Tid QId} {L : Lists} {H X : Set Tid} (h : Placed s L H X)
    (ht : s'.tcb = s.tcb) (hq : s'.queue = s.queue) : Placed s' L H X := by
  obtain ⟨tcb, queue, errno⟩ := s
  obtain ⟨tcb', queue', errno'⟩ := s'
  obtain rfl : tcb' = tcb := ht
  obtain rfl : queue' = queue := hq
  obtain ⟨⟨h1, h2, h3⟩, h4, h5⟩ := h
  exact ⟨⟨fun q => ⟨(h1 q).head, (h1 q).tail, (h1 q).size, (h1 q).linked, (h1 q).nodup⟩, h2, h3⟩,
    h4, h5⟩

/-- The invariant looks at the tasks, their queues and which mailboxes are active. -/
theorem Sound.frame {k k' : Kernel} {L : Lists} {H X : Set Tid} (h : Sound k L H X)
    (ht : k'.tcb = k.tcb) (hq : k'.queue = k.queue) (hp : k'.pend = k.pend)
    (hm : ∀ m, (k'.mailbox m).active = (k.mailbox m).active)
    (hu : k'.uartMailboxCollect = k.uartMailboxCollect) : Sound k' L H X := by
  have hd : k'.data = k.data := funext fun u => congrArg (fun f => (f u).toTcbData) ht
  refine ⟨h.placed.frame ht hq, fun u => ?_, fun u hu' => ?_, fun m hm' => ?_, hu.trans h.uart⟩
  · rw [hd]
    exact h.task u
  · rw [hd]
    exact h.pend u (hp ▸ hu')
  · exact h.inactive m ((hm m).symm.trans hm')

theorem Rest.frame {k k' : Kernel} {L : Lists} (h : Rest k L) (ht : k'.tcb = k.tcb)
    (hq : k'.queue = k.queue) (hc : k'.current = k.current) (hp : k'.pend = k.pend)
    (hm : ∀ m, (k'.mailbox m).active = (k.mailbox m).active)
    (hu : k'.uartMailboxCollect = k.uartMailboxCollect) : Rest k' L where
  toSound := hc ▸ h.toSound.frame ht hq hp hm hu
  current := fun h0 => by
    have := h.current (hc ▸ h0)
    rw [← hc] at this
    exact (congrArg (fun f => (f k'.current).state) ht).trans this

/-- Being made ready or running keeps the fields in order. -/
theorem TaskOk.setState {t : Tid} {d : TcbData} (h : TaskOk t d) (hd : d.state ≠ .dormant)
    {v : TaskState} (hv : v = .ready ∨ v = .running) : TaskOk t { d with state := v } where
  prio := h.prio
  null := fun e => ⟨(h.null e).1, (h.null e).2.1, hv⟩
  realTime := h.realTime
  suspended := fun e => by rcases hv with rfl | rfl <;> cases e
  blocked := fun e => by rcases hv with rfl | rfl <;> rcases e with e | e <;> cases e
  tid := fun _ => h.tid hd
  header := fun e => by rcases hv with rfl | rfl <;> cases e

/-- A priority of its kind for a task. -/
theorem TaskOk.setPrio {t : Tid} {d : TcbData} (h : TaskOk t d) (ht : t ≠ tidNull) {prio : Nat}
    (hp : ∃ i : Fin 5, prio = order2priority i.val) (hrt : d.realTime = true → prio = prioRt) :
    TaskOk t { d with prio } where
  prio := fun _ => hp
  null := fun e => absurd e ht
  realTime := hrt
  suspended := h.suspended
  blocked := h.blocked
  tid := h.tid
  header := h.header

/-- A task that is there, not blocked and no real-time task is ready or running. -/
theorem TaskOk.movable {t : Tid} {d : TcbData} (h : TaskOk t d) (hd : d.state ≠ .dormant)
    (hb : ¬ (d.state = .blkRecv ∨ d.state = .blkSend)) (hrt : d.realTime = false) :
    d.state = .ready ∨ d.state = .running := by
  have hsusp := h.suspended
  rw [hrt] at hsusp
  obtain ⟨hb1, hb2⟩ := not_or.mp hb
  cases hst : d.state with
  | ready => exact Or.inl rfl
  | running => exact Or.inr rfl
  | dormant => exact absurd hst hd
  | blkSend => exact absurd hst hb2
  | blkRecv => exact absurd hst hb1
  | suspended => cases hsusp hst

/-! ## 3. The scheduler -/

/-- The scheduler takes `t` and leaves the lists `L'`. -/
inductive Next (L : Lists) : Tid → Lists → Prop where
  | none (h : ∀ i, L (.ready i) = []) : Next L tidNull L
  | head (i : Fin 5) (t : Tid) (l : List Tid) (hi : L (.ready i) = t :: l)
      (hj : ∀ j, j < i → L (.ready j) = []) :
      Next L t (Function.update L (.ready i) l)

variable {k k' : Kernel} {L L' : Lists} {H X : Set Tid} {t u : Tid}

theorem Next.waiting (h : Next L t L') (m : MbxId) : L' (.waiting m) = L (.waiting m) := by
  cases h with
  | none => rfl
  | head i t l hi hj => rw [Function.update_of_ne (by simp)]

namespace Kernel

theorem data_modifyTcb (k : Kernel) (t : Tid) (f : TcbData → TcbData) :
    (k.modifyTcb t f).data = Function.update k.data t (f (k.data t)) :=
  Tasks.modify_data k.toTasks t f

theorem modifyTcb_modifyTcb (k : Kernel) (t : Tid) (f g : TcbData → TcbData) :
    (k.modifyTcb t f).modifyTcb t g = k.modifyTcb t (g ∘ f) := by
  unfold modifyTcb
  simp only [Tasks.modify_modify]

theorem data_setTaskState (k : Kernel) (t : Tid) (v : TaskState) :
    (k.setTaskState t v).data = Function.update k.data t { k.data t with state := v } :=
  Tasks.modify_data k.toTasks t fun d => { d with state := v }

theorem firstReady_none {is : List (Fin 5)} (h : k.firstReady is = none) :
    ∀ i ∈ is, (k.queue (.ready i)).head = none := by
  induction is with
  | nil => exact fun i hi => absurd hi List.not_mem_nil
  | cons j is ih =>
      unfold firstReady at h
      split at h
      · cases h
      next hj =>
        intro i hi
        rcases List.mem_cons.mp hi with rfl | hi
        · exact not_not.mp hj
        · exact ih h i hi

theorem firstReady_some {is : List (Fin 5)} {i : Fin 5} (hs : is.Pairwise (· < ·))
    (h : k.firstReady is = some i) : (k.queue (.ready i)).head ≠ none ∧
      ∀ j ∈ is, j < i → (k.queue (.ready j)).head = none := by
  induction is with
  | nil => cases h
  | cons a is ih =>
      obtain ⟨ha, hs⟩ := List.pairwise_cons.mp hs
      unfold firstReady at h
      split at h
      next hh =>
        obtain rfl := Option.some.inj h
        refine ⟨hh, fun j hj hlt => ?_⟩
        rcases List.mem_cons.mp hj with rfl | hj
        · exact absurd hlt (lt_irrefl _)
        · exact absurd hlt (not_lt.mpr (ha j hj).le)
      next hh =>
        obtain ⟨h1, h2⟩ := ih hs h
        refine ⟨h1, fun j hj hlt => ?_⟩
        rcases List.mem_cons.mp hj with rfl | hj
        · exact not_not.mp hh
        · exact h2 j hj hlt

end Kernel

/-- What the loop over the ready queues finds. -/
theorem Placed.firstReady (h : Placed k.toTasks L H X) :
    (k.firstReady [0, 1, 2, 3, 4] = none ∧ ∀ i, L (.ready i) = []) ∨
      ∃ i t l, k.firstReady [0, 1, 2, 3, 4] = some i ∧ L (.ready i) = t :: l ∧
        (k.queue (.ready i)).head = some t ∧ ∀ j, j < i → L (.ready j) = [] := by
  have hall : ∀ i : Fin 5, i ∈ ([0, 1, 2, 3, 4] : List (Fin 5)) := by decide
  have hempty : ∀ i, (k.queue (.ready i)).head = none → L (.ready i) = [] := fun i hi => by
    rw [(h.rep.chain (.ready i)).head] at hi
    exact List.head?_eq_none_iff.mp hi
  cases hf : k.firstReady [0, 1, 2, 3, 4] with
  | none => exact Or.inl ⟨rfl, fun i => hempty i (Kernel.firstReady_none hf i (hall i))⟩
  | some i =>
      obtain ⟨h1, h2⟩ := Kernel.firstReady_some (by decide) hf
      have h3 := (h.rep.chain (.ready i)).head
      cases hL : L (.ready i) with
      | nil => exact absurd (by rw [h3, hL]; rfl) h1
      | cons t l =>
          rw [hL] at h3
          exact Or.inr ⟨i, t, l, rfl, hL, h3, fun j hj => hempty j (h2 j (hall j) hj)⟩

/-- **The scheduler** takes the first task of the first ready queue that is not empty. -/
theorem Placed.scheduler (h : Placed k.toTasks L H X) :
    ∃ s t L', k.scheduler = ({ k with toTasks := s }, t) ∧ Next L t L' ∧
      Placed s L' (insert t H) X ∧ s.errno = k.errno ∧ (t ≠ tidNull → t ∉ H) ∧
      s.data = if t = tidNull then k.data else
        Function.update k.data t { k.data t with state := .running } := by
  unfold Kernel.scheduler
  rcases h.firstReady with ⟨hf, hL⟩ | ⟨i, t, l, hf, hL, hh, hj⟩
  · rw [hf]
    exact ⟨k.toTasks, tidNull, L, rfl, Next.none hL, h.hold (h.out _ (Or.inr rfl)), rfl,
      fun e => absurd rfl e, (if_pos rfl).symm⟩
  · obtain ⟨h1, -, h2, h3⟩ := h.popHead hL
    obtain ⟨hH, h0⟩ := h.not_held (hL ▸ List.mem_cons_self : t ∈ L (.ready i))
    simp only [hf, hh]
    refine ⟨_, t, _, rfl, Next.head i t l hL hj, h1, h3, fun _ => hH, ?_⟩
    rw [if_neg h0, h2]
    simp [QId.state]

/-- What `run` leaves of the data: `t` runs, and the null task is ready or running. -/
structure Ran (d d' : Tid → TcbData) (t : Tid) : Prop where
  others : ∀ u, u ≠ tidNull → d' u = if u = t then { d u with state := .running } else d u
  null : ∃ v, (v = .ready ∨ v = .running ∨ v = (d tidNull).state) ∧
    d' tidNull = { d tidNull with state := v }

/-- `gp_current_task = scheduler(); gp_current_task->state = RUNNING`. -/
theorem Placed.runScheduled (h : Placed k.toTasks L ∅ ∅) :
    ∃ s t L', k.runScheduled = { k with toTasks := s, current := t } ∧ Next L t L' ∧
      Placed s L' {t} ∅ ∧ s.errno = k.errno ∧ Ran k.data s.data t := by
  obtain ⟨s, t, L', h1, h2, h3, h4, -, h5⟩ := h.scheduler
  rw [LawfulSingleton.insert_empty_eq] at h3
  refine ⟨s.setState t .running, t, L', ?_, h2, h3.modify (Or.inl rfl) _, h4, fun u hu => ?_, ?_⟩
  · unfold Kernel.runScheduled
    rw [h1]
    rfl
  · rw [Tasks.setState, Tasks.modify_data, h5]
    by_cases e : u = t
    · subst e
      simp [hu]
    · by_cases e0 : t = tidNull
      · simp [e0, hu]
      · simp [e, e0]
  · rw [Tasks.setState, Tasks.modify_data, h5]
    by_cases e0 : t = tidNull
    · subst e0
      exact ⟨.running, Or.inr (Or.inl rfl), by simp⟩
    · refine ⟨_, Or.inr (Or.inr rfl), ?_⟩
      simp [e0, Ne.symm e0]

/-- **`k_tsk_run_new`** for a caller that is not a real-time task and is ready or blocked: the
    scheduler decides who runs. -/
theorem Placed.runNew (h : Placed k.toTasks L ∅ ∅) (hrt : (k.data k.current).realTime = false)
    (hold : k.current ≠ tidNull → (k.data k.current).state = .ready ∨
      (k.data k.current).state = .blkRecv ∨ (k.data k.current).state = .blkSend) :
    ∃ s t L', k.kTskRunNew = ({ k with toTasks := s, current := t }, decide (t ≠ k.current)) ∧
      Next L t L' ∧ Placed s L' {t} ∅ ∧ s.errno = k.errno ∧ Ran k.data s.data t := by
  obtain ⟨s, t, L', h1, h2, h3, h4, -, h5⟩ := h.scheduler
  rw [LawfulSingleton.insert_empty_eq] at h3
  have hrt' : ¬ k.cur.realTime = true := by
    rw [Bool.not_eq_true]
    exact hrt
  by_cases e : t = k.current
  · -- the caller goes on
    refine ⟨s, t, L', ?_, h2, h3, h4, fun u hu => ?_, ?_⟩
    · unfold Kernel.kTskRunNew
      rw [if_neg hrt', h1]
      simp [e, Kernel.setCurrent]
    · rw [h5]
      by_cases e0 : t = tidNull
      · simp [e0, hu]
      · rw [if_neg e0, Function.update_apply]
        split
        next e => rw [e]
        · rfl
    · refine ⟨_, Or.inr (Or.inr rfl), ?_⟩
      rw [h5]
      by_cases e0 : t = tidNull
      · rw [if_pos e0]
      · rw [if_neg e0, Function.update_of_ne (Ne.symm e0)]
  · -- another task goes on
    have hd : (s.setState t .running).data = Function.update k.data t
        { k.data t with state := .running } := by
      rw [Tasks.setState, Tasks.modify_data, h5]
      by_cases e0 : t = tidNull
      · simp [e0]
      · simp [e0]
    have hrun : ∃ s₂, k.kTskRunNew = ({ k with toTasks := s₂, current := t }, true) ∧
        (s₂ = s.setState t .running ∨
          k.current = tidNull ∧ s₂ = (s.setState t .running).setState tidNull .ready) := by
      have hstate : ((s.setState t .running).tcb k.current).state = (k.data k.current).state := by
        rw [Tasks.state_eq, hd, Function.update_of_ne (Ne.symm e)]
      unfold Kernel.kTskRunNew
      rw [if_neg hrt', h1]
      simp only [Kernel.setCurrent, Kernel.setTaskState, if_pos e, hstate]
      by_cases e0 : k.current = tidNull
      · rw [e0]
        split
        · exact ⟨_, rfl, Or.inr ⟨rfl, rfl⟩⟩
        · exact ⟨_, rfl, Or.inl rfl⟩
      · rcases hold e0 with hs | hs | hs
        · refine ⟨_, by rw [if_pos (by simp [hs])], Or.inl ?_⟩
          exact setState_eq_self (hstate.trans hs)
        · exact ⟨_, by rw [if_neg (by simp [hs])], Or.inl rfl⟩
        · exact ⟨_, by rw [if_neg (by simp [hs])], Or.inl rfl⟩
    obtain ⟨s₂, hrun, hs₂⟩ := hrun
    have hP := h3.modify (t := t) (Or.inl rfl) fun d => { d with state := .running }
    refine ⟨s₂, t, L', by rw [hrun, decide_eq_true e], h2, ?_, ?_, fun u hu => ?_, ?_⟩
    · rcases hs₂ with rfl | ⟨-, rfl⟩
      · exact hP
      · exact hP.modify (Or.inr rfl) _
    · rcases hs₂ with rfl | ⟨-, rfl⟩
      · exact h4
      · exact h4
    · have hu' : s₂.data u = (s.setState t .running).data u := by
        rcases hs₂ with rfl | ⟨-, rfl⟩
        · rfl
        · rw [Tasks.setState, Tasks.modify_data, Function.update_of_ne hu]
      rw [hu', hd, Function.update_apply]
      split
      next e => rw [e]
      · rfl
    · rcases hs₂ with rfl | ⟨-, rfl⟩
      · rw [hd, Function.update_apply]
        split
        next e => exact ⟨.running, Or.inr (Or.inl rfl), by rw [e]⟩
        · exact ⟨_, Or.inr (Or.inr rfl), rfl⟩
      · refine ⟨.ready, Or.inl rfl, ?_⟩
        rw [Tasks.setState, Tasks.modify_data, Function.update_self, hd, Function.update_apply]
        split
        next e => rw [e]
        · rfl

/-! ## 4. The moves keep the invariant -/

section Moves

variable {s : Tasks Tid QId} {H' X' : Set Tid} {i : Fin 5}

/-- A call that changes only the queues and the states of the tasks. -/
theorem Sound.update (h : Sound k L H X) (hp : Placed s L' H' X')
    (hd : ∀ u, TaskOk u (s.data u) ∧ (s.data u).realTime = (k.data u).realTime)
    (hw : ∀ m, L (.waiting m) = [] → L' (.waiting m) = []) (t : Tid) :
    Sound { k with toTasks := s, current := t } L' H' X' :=
  ⟨hp, fun u => (hd u).1, fun u hu => ⟨(h.pend u hu).1, ((hd u).2).trans (h.pend u hu).2⟩,
    fun m hm => hw m (h.inactive m hm), h.uart⟩

/-- The data after a task was made ready. -/
theorem Sound.readied (h : Sound k L H X) (hs : (k.data t).state ≠ .dormant)
    (hd : s.data = Function.update k.data t { k.data t with state := .ready }) (u : Tid) :
    TaskOk u (s.data u) ∧ (s.data u).realTime = (k.data u).realTime := by
  rw [hd, Function.update_apply]
  split
  next e =>
    subst e
    exact ⟨(h.task u).setState hs (Or.inl rfl), rfl⟩
  · exact ⟨h.task u, rfl⟩

/-- The data after the scheduler has chosen. -/
theorem Sound.ran (h : Sound k L H X) (hn : Next L t L') (hd : Ran k.data s.data t) (u : Tid) :
    TaskOk u (s.data u) ∧ (s.data u).realTime = (k.data u).realTime := by
  by_cases h0 : u = tidNull
  · subst h0
    obtain ⟨v, hv, hd0⟩ := hd.null
    obtain ⟨h1, h2, h3⟩ := (h.task tidNull).null rfl
    have hdorm : (k.data tidNull).state ≠ .dormant := by
      rcases h3 with h3 | h3 <;> rw [h3] <;> simp
    rw [hd0]
    refine ⟨(h.task tidNull).setState hdorm ?_, rfl⟩
    rcases hv with hv | hv | hv
    · exact Or.inl hv
    · exact Or.inr hv
    · rw [hv]
      exact h3
  · rw [hd.others u h0]
    split
    next e =>
      refine ⟨(h.task u).setState ?_ (Or.inr rfl), rfl⟩
      cases hn with
      | none => exact absurd e h0
      | head i t l hi hj =>
          have := h.placed.state_of_mem (hi ▸ List.mem_cons_self : t ∈ L (.ready i))
          rw [e, this]
          simp [QId.state]
    · exact ⟨h.task u, rfl⟩

/-- Whoever the scheduler takes runs at the highest priority of all. -/
theorem Sound.next_top (h : Sound k L H X) (hn : Next L t L') (hd : Ran k.data s.data t) :
    Top { k with toTasks := s, current := t } L' := by
  intro j u hu
  change (s.data t).prio ≤ _
  cases hn with
  | none hL => rw [hL j] at hu; exact absurd hu List.not_mem_nil
  | head i t l hi hj =>
      have hmem : t ∈ L (.ready i) := hi ▸ List.mem_cons_self
      have hprio := readyAt_priority.mp ((h.placed.of_mem hmem).2 i rfl)
      rw [hd.others t (h.placed.not_held hmem).2, if_pos rfl, hprio, order2priority_le]
      by_contra hlt
      have hji := not_le.mp hlt
      rw [Function.update_of_ne (fun e => hji.ne (QId.ready.inj e)), hj j hji] at hu
      exact absurd hu List.not_mem_nil

/-- The scheduler leaves the kernel at rest. -/
theorem Sound.next (h : Sound k L ∅ X) (hn : Next L t L') (hp : Placed s L' {t} ∅)
    (hd : Ran k.data s.data t) : Rest { k with toTasks := s, current := t } L' where
  toSound := h.update hp (h.ran hn hd) (fun m hm => (hn.waiting m).trans hm) t
  current := fun h0 => by
    change (s.data t).state = .running
    rw [hd.others t h0, if_pos rfl]

end Moves

/-- Writing fields of a held task. -/
theorem Sound.modify (h : Sound k L H X) (ht : t ∈ H ∨ t = tidNull) {f : TcbData → TcbData}
    (hok : TaskOk t (f (k.data t)))
    (hrt : k.pend t ≠ none → (f (k.data t)).realTime = false) :
    Sound (k.modifyTcb t f) L H X := by
  have hd := k.data_modifyTcb t f
  refine ⟨h.placed.modify ht f, fun u => ?_, fun u hu => ?_, h.inactive, h.uart⟩
  · rw [hd, Function.update_apply]
    split
    next e => exact e ▸ hok
    · exact h.task u
  · rw [hd, Function.update_apply]
    refine ⟨(h.pend u hu).1, ?_⟩
    split
    next e => exact hrt (e ▸ hu)
    · exact (h.pend u hu).2

/-- Writing fields of a task that leave it where it is. -/
theorem Sound.modify_home (h : Sound k L H X) {f : TcbData → TcbData}
    (hs : (f (k.data t)).state = (k.data t).state)
    (hp : (k.data t).state = .ready → (f (k.data t)).prio = (k.data t).prio)
    (hok : TaskOk t (f (k.data t))) (hrt : (f (k.data t)).realTime = (k.data t).realTime) :
    Sound (k.modifyTcb t f) L H X := by
  have hd := k.data_modifyTcb t f
  refine ⟨h.placed.modify_home hs hp, fun u => ?_, fun u hu => ?_, h.inactive, h.uart⟩
  · rw [hd, Function.update_apply]
    split
    next e => exact e ▸ hok
    · exact h.task u
  · refine ⟨(h.pend u hu).1, ?_⟩
    rw [hd, Function.update_apply]
    split
    next e => exact hrt.trans (e ▸ (h.pend u hu).2)
    · exact (h.pend u hu).2

/-- Making a held task ready or running. -/
theorem Sound.setTaskState (h : Sound k L H X) (ht : t ∈ H ∨ t = tidNull)
    (hs : (k.data t).state ≠ .dormant) {v : TaskState} (hv : v = .ready ∨ v = .running) :
    Sound (k.setTaskState t v) L H X ∧
      (k.setTaskState t v).data = Function.update k.data t { k.data t with state := v } :=
  ⟨h.modify (f := fun d => { d with state := v }) ht ((h.task t).setState hs hv)
    fun hu => (h.pend t hu).2, k.data_setTaskState t v⟩

theorem Sound.setCurrent (h : Sound k L H X) (t : Tid) : Sound (k.setCurrent t) L H X :=
  ⟨h.placed, h.task, h.pend, h.inactive, h.uart⟩

/-- Putting a task at the head of its ready queue. -/
theorem Sound.pushHead (h : Sound k L H X) {i : Fin 5} (ht : t ∈ H) (h0 : t ≠ tidNull)
    (hX : t ∉ X) (hs : (k.data t).state = .ready ∨ (k.data t).state = .running)
    (hq : readyAt (priority2order (k.data t).prio) = .ok (.ready i)) :
    Sound (k.pushHead t (.ready i)) (Function.update L (.ready i) (t :: L (.ready i)))
        (H \ {t}) X ∧
      (k.pushHead t (.ready i)).data =
        Function.update k.data t { k.data t with state := .ready } := by
  have hne : ∀ v, v = .suspended ∨ v = .dormant → (k.data t).state ≠ v := by
    intro v hv e
    rw [e] at hs
    rcases hv with rfl | rfl <;> simp at hs
  obtain ⟨h1, h2, -⟩ := h.placed.pushHead ht h0 hX (hne _ (Or.inl rfl)) hq
  refine ⟨h.update h1 (h.readied (hne _ (Or.inr rfl)) h2) (fun m hm => ?_) k.current, h2⟩
  rw [Function.update_of_ne (by simp)]
  exact hm

/-- Putting a task at the tail of its ready queue and making it ready; `push_tail` makes it ready
    unless it is a real-time task. -/
theorem Sound.pushTail (h : Sound k L H X) {i : Fin 5} (ht : t ∈ H) (h0 : t ≠ tidNull)
    (hX : ∀ u ∈ X, u = t) (hs : (k.data t).state = .ready ∨ (k.data t).state = .running ∨
      (k.data t).state = .blkRecv)
    (hq : readyAt (priority2order (k.data t).prio) = .ok (.ready i)) :
    ∃ s, k.pushTail t (.ready i) = .ok { k with toTasks := s } ∧
      Sound { k with toTasks := s.setState t .ready }
        (Function.update L (.ready i) (k.toTasks.queued t (L (.ready i)))) (H \ {t}) ∅ ∧
      (s.setState t .ready).data = Function.update k.data t { k.data t with state := .ready } ∧
      ((k.data t).realTime = false ∨ (k.data t).state = .ready → s.setState t .ready = s) := by
  have hne : ∀ v, v = .blkSend ∨ v = .suspended ∨ v = .dormant → (k.data t).state ≠ v := by
    intro v hv e
    rw [e] at hs
    rcases hv with rfl | rfl | rfl <;> simp at hs
  obtain ⟨s, h1, h2, h3, -, h4⟩ := h.placed.pushTail_ready ht h0 hX (h.task t).realTime
    (hne _ (Or.inl rfl)) (hne _ (Or.inr (Or.inl rfl))) hq
  refine ⟨s, by unfold Kernel.pushTail; rw [h1]; rfl, h.update h2
    (h.readied (hne _ (Or.inr (Or.inr rfl))) h3) (fun m hm => ?_) k.current, h3, h4⟩
  rw [Function.update_of_ne (by simp)]
  exact hm

/-- Taking a task out of its queue, with fields `f` just written. -/
theorem Sound.popTask (h : Sound k L H X) {q : QId} (ht : t ∈ L q) {f : TcbData → TcbData}
    (hs : (f (k.data t)).state = (k.data t).state) (hok : TaskOk t (f (k.data t)))
    (hrt : (f (k.data t)).realTime = (k.data t).realTime) :
    ∃ s v, (k.toTasks.modify t f).popTask t q = .ok (s, 1) ∧
      Sound { k with toTasks := s } (Function.update L q ((L q).erase t)) (insert t H)
        (insert t X) ∧
      (AtEnd k.toTasks q t →
        Sound { k with toTasks := s } (Function.update L q ((L q).erase t)) (insert t H) X) ∧
      (v = .ready ∨ v = (k.data t).state) ∧
      s.data = Function.update k.data t { f (k.data t) with state := v } := by
  obtain ⟨s, v, h1, h2, h3, h6, h7, -⟩ := h.placed.popTask ht f
  have hq := h.placed.state_of_mem ht
  have hne : (f (k.data t)).state ≠ .dormant := by
    rw [hs, hq]
    cases q <;> simp [QId.state]
  have hd : ∀ u, TaskOk u (s.data u) ∧ (s.data u).realTime = (k.data u).realTime := fun u => by
    rw [h7, Function.update_apply]
    split
    next e =>
      subst e
      refine ⟨?_, hrt⟩
      rcases h6 with rfl | rfl
      · exact hok.setState hne (Or.inl rfl)
      · exact hok
    · exact ⟨h.task u, rfl⟩
  have hw : ∀ m, L (.waiting m) = [] →
      Function.update L q ((L q).erase t) (.waiting m) = [] := fun m hm => by
    rw [Function.update_apply]
    split
    next e =>
      rw [← e, hm]
      rfl
    · exact hm
  exact ⟨s, v, h1, h.update h2 hd hw k.current, fun he => h.update (h3 he) hd hw k.current,
    by rwa [hs] at h6, h7⟩

/-- Taking the head of a queue. -/
theorem Sound.popHead (h : Sound k L H X) {q : QId} {l : List Tid} (hL : L q = t :: l) :
    Sound (k.popHead q) (Function.update L q l) (insert t H) X ∧
      (k.popHead q).data = Function.update k.data t
        { k.data t with state := if q.state = .blkSend then .ready else .running } := by
  obtain ⟨h1, -, h2, -⟩ := h.placed.popHead hL
  have hs := h.placed.state_of_mem (hL ▸ List.mem_cons_self : t ∈ L q)
  refine ⟨h.update h1 (fun u => ?_) (fun m hm => ?_) k.current, h2⟩
  · rw [h2, Function.update_apply]
    split
    next e =>
      subst e
      refine ⟨(h.task u).setState ?_ ?_, rfl⟩
      · rw [hs]
        cases q <;> simp [QId.state]
      · split
        · exact Or.inl rfl
        · exact Or.inr rfl
    · exact ⟨h.task u, rfl⟩
  · rw [Function.update_of_ne]
    · exact hm
    · rintro rfl
      rw [hm] at hL
      cases hL

/-- A held task joins a queue in which its state keeps it. -/
theorem Sound.pushTail_keep (h : Sound k L H X) {q : QId} (ht : t ∈ H) (h0 : t ≠ tidNull)
    (hX : ∀ u ∈ X, u = t) (hs : (k.data t).state = q.state)
    (hq : q.state = .blkSend ∨ q.state = .suspended)
    (hm : ∀ m, q = .waiting m → (k.mailbox m).active = true) :
    ∃ s, k.pushTail t q = .ok { k with toTasks := s } ∧
      Sound { k with toTasks := s } (Function.update L q (k.toTasks.queued t (L q))) (H \ {t}) ∅ ∧
      s.data = k.data := by
  obtain ⟨s, h1, h2, h3, -⟩ := h.placed.pushTail_keep ht h0 hX (h.task t).realTime hs hq
  refine ⟨s, by unfold Kernel.pushTail; rw [h1]; rfl, ⟨h2, fun u => ?_, fun u hu => ?_,
    fun m hm' => ?_, h.uart⟩, h3⟩
  · change TaskOk u (s.data u)
    rw [h3]
    exact h.task u
  · change _ ∧ (s.data u).realTime = false
    rw [h3]
    exact h.pend u hu
  · rw [Function.update_of_ne]
    · exact h.inactive m hm'
    · rintro rfl
      have := hm m rfl
      rw [hm'] at this
      cases this

/-- The running task let go. -/
theorem Rest.drop (h : Rest k L) : Sound k L ∅ ∅ := by
  refine ⟨?_, h.task, h.pend, h.inactive, h.uart⟩
  by_cases h0 : k.current = tidNull
  · exact (h0 ▸ h.placed).drop_null
  · have := h.placed.drop (t := k.current) (Or.inr (Or.inl (h.current h0)))
    rwa [Set.sdiff_self] at this

/-! ## 5. Rescheduling -/

/-- No task becomes a real-time task. -/
def NoNewRt (d d' : Tid → TcbData) : Prop := ∀ u, (d' u).realTime = true → (d u).realTime = true

theorem NoNewRt.refl (d : Tid → TcbData) : NoNewRt d d := fun _ => id

theorem NoNewRt.trans {d d' d'' : Tid → TcbData} (h : NoNewRt d d') (h' : NoNewRt d' d'') :
    NoNewRt d d'' := fun u hu => h u (h' u hu)

theorem NoNewRt.update {d d' : Tid → TcbData} {x : TcbData} (hd : d' = Function.update d t x)
    (hx : x.realTime = true → (d t).realTime = true) : NoNewRt d d' := by
  intro u hu
  rw [hd, Function.update_apply] at hu
  split at hu
  next e => exact e ▸ hx hu
  · exact hu

theorem NoNewRt.noRt (h : NoNewRt k.data k'.data) (hk : NoRt k) : NoRt k' := fun t => by
  rw [Bool.eq_false_iff]
  intro ht
  have := h t ht
  rw [hk t] at this
  cases this

/-- Rescheduling touches no waiting list and no blocked task, blocks no receiver and makes no task
    a real-time task. -/
structure Resched (d d' : Tid → TcbData) (L L' : Lists) : Prop where
  waiting : ∀ m, L' (.waiting m) = L (.waiting m)
  blocked : ∀ u, (d u).state = .blkSend ∨ (d u).state = .blkRecv → d' u = d u
  recv : ∀ u, (d' u).state = .blkRecv → (d u).state = .blkRecv
  realTime : NoNewRt d d'

/-- The tasks stay as they are, and so do the waiting lists. -/
theorem Resched.lists (d : Tid → TcbData) (hw : ∀ m, L' (.waiting m) = L (.waiting m)) :
    Resched d d L L' :=
  ⟨hw, fun _ _ => rfl, fun _ => id, fun _ => id⟩

theorem Resched.refl (d : Tid → TcbData) (L : Lists) : Resched d d L L :=
  Resched.lists d fun _ => rfl

theorem Resched.trans {d d' d'' : Tid → TcbData} {L'' : Lists} (h : Resched d d' L L')
    (h' : Resched d' d'' L' L'') : Resched d d'' L L'' := by
  refine ⟨fun m => (h'.waiting m).trans (h.waiting m), fun u hu => ?_,
    fun u hu => h.recv u (h'.recv u hu), fun u hu => h.realTime u (h'.realTime u hu)⟩
  have h1 := h.blocked u hu
  exact (h'.blocked u (by rw [h1]; exact hu)).trans h1

/-- A change of one task that is not blocked before and not a blocked receiver after. -/
theorem Resched.single {d d' : Tid → TcbData} (hd : ∀ u, u ≠ t → d' u = d u)
    (hs : (d t).state ≠ .blkSend) (hs' : (d t).state ≠ .blkRecv) (ht : (d' t).state ≠ .blkRecv)
    (hrt : (d' t).realTime = true → (d t).realTime = true)
    (hw : ∀ m, L' (.waiting m) = L (.waiting m)) : Resched d d' L L' := by
  refine ⟨hw, fun u hu => hd u fun e => ?_, fun u hu => ?_, fun u hu => ?_⟩
  · exact hu.elim (fun h => hs (e ▸ h)) fun h => hs' (e ▸ h)
  · have hne : u ≠ t := fun e => ht (e ▸ hu)
    rwa [hd u hne] at hu
  · by_cases e : u = t
    · rw [e] at hu ⊢
      exact hrt hu
    · rwa [hd u e] at hu

/-- Making a task ready that is not blocked. -/
theorem Resched.ready {d d' : Tid → TcbData} {i : Fin 5} {l : List Tid}
    (hs : (d t).state ≠ .blkSend) (hs' : (d t).state ≠ .blkRecv)
    (hd : d' = Function.update d t { d t with state := .ready }) :
    Resched d d' L (Function.update L (.ready i) l) := by
  subst hd
  refine Resched.single (t := t) (fun u hu => Function.update_of_ne hu _ _) hs hs' ?_ ?_
    fun m => Function.update_of_ne (by simp) _ _
  · rw [Function.update_self]
    simp
  · rw [Function.update_self]
    exact id

/-- No message moves: the waiting lists are as before, the blocked tasks too, but for their
    priorities, and nobody begins to wait for a message. -/
structure Still (d d' : Tid → TcbData) (L L' : Lists) : Prop where
  waiting : ∀ m, L' (.waiting m) = L (.waiting m)
  blocked : ∀ u, (d u).state = .blkSend ∨ (d u).state = .blkRecv →
    (d' u).state = (d u).state ∧ (d' u).messageHeader = (d u).messageHeader
  recv : ∀ u, (d' u).state = .blkRecv → (d u).state = .blkRecv

theorem Resched.still {d d' : Tid → TcbData} (h : Resched d d' L L') : Still d d' L L' :=
  ⟨h.waiting, fun u hu => by rw [h.blocked u hu]; exact ⟨rfl, rfl⟩, h.recv⟩

theorem Still.refl (d : Tid → TcbData) (L : Lists) : Still d d L L :=
  (Resched.refl d L).still

theorem Still.trans {d d' d'' : Tid → TcbData} {L'' : Lists} (h : Still d d' L L')
    (h' : Still d' d'' L' L'') : Still d d'' L L'' := by
  refine ⟨fun m => (h'.waiting m).trans (h.waiting m), fun u hu => ?_,
    fun u hu => h.recv u (h'.recv u hu)⟩
  obtain ⟨h1, h2⟩ := h.blocked u hu
  obtain ⟨h3, h4⟩ := h'.blocked u (h1 ▸ hu)
  exact ⟨h3.trans h1, h4.trans h2⟩

/-- One task changes, its state and its message being left alone if it is blocked. -/
theorem Still.update {d d' : Tid → TcbData} {x : TcbData} (hd : d' = Function.update d t x)
    (hx : x.state = (d t).state ∧ x.messageHeader = (d t).messageHeader ∨
      ((d t).state = .ready ∨ (d t).state = .running ∨ (d t).state = .suspended) ∧
        x.state ≠ .blkRecv)
    (hw : ∀ m, L' (.waiting m) = L (.waiting m)) : Still d d' L L' := by
  subst hd
  refine ⟨hw, fun u hu => ?_, fun u hu => ?_⟩
  · rw [Function.update_apply]
    split
    next e =>
      subst e
      refine hx.resolve_right fun ⟨hs, _⟩ => ?_
      rcases hs with hs | hs | hs <;> rw [hs] at hu <;> simp at hu
    · exact ⟨rfl, rfl⟩
  · rw [Function.update_apply] at hu
    split at hu
    next e =>
      subst e
      rcases hx with ⟨hs, -⟩ | ⟨-, hs⟩
      · exact hs.symm.trans hu
      · exact absurd hu hs
    · exact hu

section Scheduling

variable {s : Tasks Tid QId}

theorem Sound.resched (h : Sound k L H X) (hn : Next L t L') (hd : Ran k.data s.data t) :
    Resched k.data s.data L L' := by
  have hnull : ∀ v, (v = .blkSend ∨ v = .blkRecv) → (k.data tidNull).state ≠ v := fun v hv e => by
    have := ((h.task tidNull).null rfl).2.2
    rw [e] at this
    rcases hv with rfl | rfl <;> simp at this
  have hready : t ≠ tidNull → (k.data t).state = .ready := fun h0 => by
    cases hn with
    | none => exact absurd rfl h0
    | head i t l hi hj => exact h.placed.state_of_mem (hi ▸ List.mem_cons_self : t ∈ L (.ready i))
  refine ⟨hn.waiting, fun u hu => ?_, fun u hu => ?_,
    fun u hu => (h.ran hn hd u).2.symm.trans hu⟩
  · have h0 : u ≠ tidNull := fun e => by
      subst e
      exact hu.elim (hnull _ (Or.inl rfl)) (hnull _ (Or.inr rfl))
    rw [hd.others u h0]
    split
    next e =>
      have := hready (e ▸ h0)
      rw [← e] at this
      rw [this] at hu
      simp at hu
    · rfl
  · by_cases h0 : u = tidNull
    · subst h0
      obtain ⟨v, hv, hd0⟩ := hd.null
      rw [hd0] at hu
      rcases hv with hv | hv | hv
      · rw [hv] at hu; cases hu
      · rw [hv] at hu; cases hu
      · rwa [← hv]
    · rw [hd.others u h0] at hu
      split at hu
      · cases hu
      · exact hu

/-- **`k_tsk_run_new`** leaves the kernel at rest, the highest ready task running. -/
theorem Sound.runNew (h : Sound k L ∅ ∅) (hrt : (k.data k.current).realTime = false)
    (hold : k.current ≠ tidNull → (k.data k.current).state = .ready ∨
      (k.data k.current).state = .blkRecv ∨ (k.data k.current).state = .blkSend) :
    ∃ s t L', k.kTskRunNew = ({ k with toTasks := s, current := t }, decide (t ≠ k.current)) ∧
      Rest { k with toTasks := s, current := t } L' ∧
      Top { k with toTasks := s, current := t } L' ∧ Resched k.data s.data L L' ∧ Next L t L' := by
  obtain ⟨s, t, L', h1, h2, h3, -, h5⟩ := h.placed.runNew hrt hold
  exact ⟨s, t, L', h1, h.next h2 h3 h5, h.next_top h2 h5, h.resched h2 h5, h2⟩

theorem Sound.runScheduled (h : Sound k L ∅ ∅) :
    ∃ s t L', k.runScheduled = { k with toTasks := s, current := t } ∧
      Rest { k with toTasks := s, current := t } L' ∧
      Top { k with toTasks := s, current := t } L' ∧ Resched k.data s.data L L' := by
  obtain ⟨s, t, L', h1, h2, h3, -, h5⟩ := h.placed.runScheduled
  exact ⟨s, t, L', h1, h.next h2 h3 h5, h.next_top h2 h5, h.resched h2 h5⟩

/-- What the running task is, unless it is the null task. -/
theorem Rest.running (h : Rest k L) (h0 : k.current ≠ tidNull) :
    (k.data k.current).state = .running ∧
      ∃ i : Fin 5, (k.data k.current).prio = order2priority i.val ∧
        readyAt (priority2order (k.data k.current).prio) = .ok (.ready i) := by
  obtain ⟨i, hi⟩ := (h.task k.current).prio h0
  exact ⟨h.current h0, i, hi, readyAt_priority.mpr hi⟩

/-- **The caller goes back to the head of its queue, and the scheduler decides.** -/
theorem Rest.giveWay (h : Rest k L) (h0 : k.current ≠ tidNull)
    (hrt : (k.data k.current).realTime = false) {i : Fin 5}
    (hi : readyAt (priority2order (k.data k.current).prio) = .ok (.ready i)) :
    ∃ s t L', (k.pushHead k.current (.ready i)).kTskRunNew.1 =
        { k with toTasks := s, current := t } ∧
      Rest { k with toTasks := s, current := t } L' ∧
      Top { k with toTasks := s, current := t } L' ∧ Resched k.data s.data L L' := by
  have hrun := h.current h0
  obtain ⟨hs, h2⟩ := h.toSound.pushHead (Set.mem_singleton _) h0 (Set.notMem_empty _)
    (Or.inr hrun) hi
  rw [Set.sdiff_self] at hs
  have hcur : (k.pushHead k.current (.ready i)).data k.current =
      { k.data k.current with state := .ready } := by
    refine (congrFun h2 k.current).trans ?_
    rw [Function.update_self]
  obtain ⟨s, t, L', h3, h4, h5, h6, -⟩ := hs.runNew ((congrArg TcbData.realTime hcur).trans hrt)
    (fun _ => Or.inl (congrArg TcbData.state hcur))
  refine ⟨s, t, L', congrArg Prod.fst h3, h4, h5, Resched.trans ?_ h6⟩
  exact Resched.ready (by rw [hrun]; simp) (by rw [hrun]; simp) h2

end Scheduling

end Rtx
