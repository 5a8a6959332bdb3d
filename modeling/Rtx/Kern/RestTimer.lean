/-
  File:      Rtx/Kern/RestTimer.lean
  Subject:   The timer interrupt on a kernel at rest.

  The handler returns exactly when some task is suspended and a real-time task that runs has
  another task to compare itself with (`Kernel.TickSafe`), and then it keeps the kernel at rest.
-/
import Rtx.Kern.RestTask
import Rtx.Kern.Timer

namespace Rtx

open Lib

variable {k k' : Kernel} {L L' : Lists} {H X : Set Tid} {t : Tid} {s : Tasks Tid QId}

/-! ## 1. The scheduler, inside the handler -/

/-- The scheduler finds nobody, or takes the first task of the highest ready queue. -/
theorem Sound.scheduler (h : Sound k L H X) :
    (k.scheduler = (k, tidNull) ∧ ∀ i, L (.ready i) = []) ∨
      ∃ (i : Fin 5) (t : Tid) (l : List Tid) (s : Tasks Tid QId), L (.ready i) = t :: l ∧
        (∀ j, j < i → L (.ready j) = []) ∧
        t ≠ tidNull ∧ t ∉ H ∧ k.scheduler = ({ k with toTasks := s }, t) ∧
        Sound { k with toTasks := s } (Function.update L (.ready i) l) (insert t H) X ∧
        s.data = Function.update k.data t { k.data t with state := .running } := by
  unfold Kernel.scheduler
  rcases h.placed.firstReady with ⟨hf, hL⟩ | ⟨i, t, l, hf, hL, hh, hj⟩
  · rw [hf]
    exact Or.inl ⟨rfl, hL⟩
  · obtain ⟨h1, h2⟩ := h.popHead hL
    obtain ⟨hH, h0⟩ := h.placed.not_held (hL ▸ List.mem_cons_self : t ∈ L (.ready i))
    simp only [hf, hh]
    exact Or.inr ⟨i, t, l, _, hL, hj, h0, hH, rfl, h1, h2⟩

/-- The task in the kernel's hands goes on. -/
theorem Sound.switchTo (h : Sound k L {t} ∅) (hs : (k.data t).state ≠ .dormant) :
    Rest (k.switchTo t) L := by
  obtain ⟨h1, h2⟩ := (h.setCurrent t).setTaskState (v := .running) (Or.inl rfl) hs (Or.inr rfl)
  refine ⟨h1, fun _ => ?_⟩
  exact congrArg TcbData.state ((congrFun h2 t).trans (Function.update_self _ _ _))

theorem Kernel.countExecution_still (k : Kernel) (t : Tid) (L : Lists) :
    Still k.data (k.countExecution t).data L L :=
  Still.update (k.data_modifyTcb t _) (Or.inl ⟨rfl, rfl⟩) fun _ => rfl

/-- A task that is not blocked goes on. -/
theorem Kernel.switchTo_still (k : Kernel) (hs : (k.data t).state = .ready ∨
    (k.data t).state = .running) (L : Lists) : Still k.data (k.switchTo t).data L L :=
  Still.update ((k.setCurrent t).data_setTaskState t .running)
    (Or.inr ⟨hs.imp_right Or.inl, by simp⟩) fun _ => rfl

theorem Rest.countExecution (h : Rest k L) (t : Tid) : Rest (k.countExecution t) L := by
  have hok := h.task t
  have h1 := h.toSound.modify_home (t := t)
    (f := fun d => { d with nthExecution := d.nthExecution + 1 }) rfl (fun _ => rfl)
    ⟨hok.prio, hok.null, hok.realTime, hok.suspended, hok.blocked, hok.tid, hok.header⟩ rfl
  refine ⟨h1, fun h0 => ?_⟩
  refine (congrArg TcbData.state (congrFun (k.data_modifyTcb t _) k.current)).trans ?_
  rw [Function.update_apply]
  split
  next e =>
    have := h.current h0
    rw [e] at this
    exact this
  · exact h.current h0

/-- A task that was taken from the head of its queue goes back there, and all is as before. -/
theorem Rest.putBack (h : Rest k L) {i : Fin 5} {l : List Tid} (hL : L (.ready i) = t :: l)
    (h1 : Sound { k with toTasks := s } (Function.update L (.ready i) l) (insert t {k.current}) ∅)
    (h2 : s.data = Function.update k.data t { k.data t with state := .running }) :
    ∃ k', Kernel.putBack { k with toTasks := s } t = .ok k' ∧ Rest k' L ∧ k'.data = k.data ∧
      k'.current = k.current := by
  have hmem : t ∈ L (.ready i) := hL ▸ List.mem_cons_self
  obtain ⟨hc, h0⟩ := h.placed.not_held hmem
  have hdt : s.data t = { k.data t with state := .running } := by rw [h2, Function.update_self]
  have hq : readyAt (priority2order (s.data t).prio) = .ok (.ready i) := by
    rw [hdt]
    exact (h.placed.of_mem hmem).2 i rfl
  obtain ⟨h3, h4⟩ := h1.pushHead (t := t) (i := i) (Set.mem_insert t _) h0 (Set.notMem_empty t)
    (Or.inr (congrArg TcbData.state hdt)) hq
  rw [Set.insert_sdiff_self_of_notMem hc, Function.update_idem, Function.update_self, ← hL,
    Function.update_eq_self] at h3
  have hdata : (Kernel.pushHead { k with toTasks := s } t (.ready i)).data = k.data := by
    refine h4.trans ?_
    change Function.update s.data t { s.data t with state := .ready } = _
    rw [hdt, h2, Function.update_idem]
    have hst : (k.data t).state = .ready := h.placed.state_of_mem hmem
    refine (congrArg (Function.update k.data t) ?_).trans (Function.update_eq_self t _)
    change ({ k.data t with state := .ready } : TcbData) = k.data t
    rw [← hst]
  exact ⟨_, bind_of_ok hq, ⟨h3, fun hne => (congrArg TcbData.state (congrFun hdata k.current)).trans
    (h.current hne)⟩, hdata, rfl⟩

/-! ## 2. Who runs after the interrupt -/

/-- What the choice of the handler leaves: the kernel at rest, no message moved. -/
def Chosen (k k' : Kernel) (L : Lists) : Prop := ∃ L', Rest k' L' ∧ Still k.data k'.data L L'

/-- The scheduler takes a ready task. -/
theorem Rest.scheduled_still (h : Rest k L) {i : Fin 5} {l : List Tid} (hL : L (.ready i) = t :: l)
    (hd : s.data = Function.update k.data t { k.data t with state := .running }) :
    Still k.data s.data L (Function.update L (.ready i) l) :=
  Still.update hd (Or.inr ⟨Or.inl (h.placed.state_of_mem (hL ▸ List.mem_cons_self)), by simp⟩)
    fun m => Function.update_of_ne (by simp) _ _

/-- The null task makes way for any other. -/
theorem Rest.preemptNull (h : Rest k L) : Chosen k k.preemptNull L := by
  unfold Kernel.preemptNull
  rcases h.drop.scheduler with ⟨hs, -⟩ | ⟨i, t, l, s, hL, -, h0, -, hs, h1, h2⟩
  · rw [hs]
    refine ⟨L, ?_⟩
    simp only [ne_eq, not_true_eq_false, if_false]
    exact ⟨h, Still.refl _ _⟩
  · rw [hs]
    simp only [if_pos h0]
    rw [LawfulSingleton.insert_empty_eq] at h1
    have hdt : (s.data t).state = .running := by rw [h2, Function.update_self]
    have h3 := h1.switchTo (by
      change (s.data t).state ≠ _
      rw [hdt]
      simp)
    have h4 := (h.scheduled_still hL h2).trans
      (Kernel.switchTo_still { k with toTasks := s } (Or.inr hdt) _)
    split
    · exact ⟨_, h3.countExecution t, h4.trans (Kernel.countExecution_still _ _ _)⟩
    · exact ⟨_, h3, h4⟩

/-- A real-time task makes way for one whose deadline is earlier; it cannot do without another
    ready task. -/
theorem Rest.preemptRealTime (h : Rest k L) (h0 : k.current ≠ tidNull) :
    Ends k.preemptRealTime (fun _ => ∀ i, L (.ready i) = [])
      fun k' => (∃ i, L (.ready i) ≠ []) ∧ Chosen k k' L := by
  have hrun := h.current h0
  unfold Kernel.preemptRealTime
  refine Ends.ite (fun e => ?_) fun _ => ?_
  · rw [show k.cur.state = .running from hrun] at e
    simp at e
  refine Ends.ite (fun _ => ?_) fun e => absurd hrun e
  rcases h.toSound.scheduler with ⟨hs, hL⟩ | ⟨i, t, l, s, hL, -, ht0, htH, hs, h1, h2⟩
  · -- the null task stands for nobody, and it has no ready queue
    rw [hs]
    have hnull : (k.tcb tidNull).realTime = false := ((h.task tidNull).null rfl).2.1
    simp only [hnull]
    unfold Kernel.putBack
    rw [show (k.tcb tidNull).prio = prioNull from ((h.task tidNull).null rfl).1]
    exact hL
  rw [hs]
  have hne : ∃ i, L (.ready i) ≠ [] := ⟨i, by rw [hL]; simp⟩
  have hback : Ends (Kernel.putBack { k with toTasks := s } t) (fun _ => ∀ i, L (.ready i) = [])
      fun k' => (∃ i, L (.ready i) ≠ []) ∧ Chosen k k' L := by
    obtain ⟨k', h3, h4, h5, -⟩ := h.putBack hL h1 h2
    exact Ends.intro_ok h3 ⟨hne, L, h4, h5 ▸ Still.refl _ _⟩
  refine Ends.ite (fun _ => ?_) fun _ => hback
  refine Ends.ite (fun _ => ?_) fun _ => hback
  -- the running task goes back to its queue, and the one with the earlier deadline runs
  obtain ⟨-, c, -, hcq⟩ := h.running h0
  have hct : k.current ≠ t := fun e => htH e.symm
  have hdc : s.data k.current = k.data k.current := by rw [h2, Function.update_of_ne hct]
  have hcq' : readyAt (priority2order (s.data k.current).prio) = .ok (.ready c) := by
    rw [hdc]
    exact hcq
  obtain ⟨s', h3, h4, h5, -⟩ := h1.pushTail (t := k.current) (i := c)
    (Set.mem_insert_of_mem t rfl) h0 (fun u hu => absurd hu (Set.notMem_empty u))
    (Or.inr (Or.inl ((congrArg TcbData.state hdc).trans hrun))) hcq'
  rw [pair_sdiff_right hct.symm] at h4
  have hdt : ((s'.setState k.current .ready).data t).state = .running := by
    rw [h5, Function.update_of_ne hct.symm]
    change (s.data t).state = _
    rw [h2, Function.update_self]
  have h6 := h4.switchTo (by
    change ((s'.setState k.current .ready).data t).state ≠ _
    rw [hdt]
    simp)
  refine Ends.bind_ok hcq' (Ends.bind_ok h3 ⟨hne, _, h6.countExecution t,
    (((h.scheduled_still hL h2).trans (Still.update h5 (Or.inr ⟨Or.inr (Or.inl
      ((congrArg TcbData.state hdc).trans hrun)), ?_⟩) ?_)).trans (Kernel.switchTo_still
        { k with toTasks := s'.setState k.current .ready } (Or.inr hdt) _)).trans
          (Kernel.countExecution_still _ _ _)⟩)
  · simp
  · exact fun m => Function.update_of_ne (by simp) _ _

/-- Any other task makes way for a real-time task. -/
theorem Rest.preemptOther (h : Rest k L) (h0 : k.current ≠ tidNull) :
    ∃ k', k.preemptOther = .ok k' ∧ Chosen k k' L := by
  have hrun := h.current h0
  unfold Kernel.preemptOther
  rcases h.toSound.scheduler with ⟨hs, -⟩ | ⟨i, t, l, s, hL, -, ht0, htH, hs, h1, h2⟩
  · rw [hs]
    simp only [ne_eq, not_true_eq_false, if_false]
    exact ⟨k, rfl, L, h, Still.refl _ _⟩
  rw [hs]
  simp only [if_pos ht0]
  split
  · obtain ⟨-, c, -, hcq⟩ := h.running h0
    have hct : k.current ≠ t := fun e => htH e.symm
    have hdc : s.data k.current = k.data k.current := by rw [h2, Function.update_of_ne hct]
    obtain ⟨h3, h4⟩ := h1.setTaskState (t := k.current) (v := .ready)
      (Or.inl (Set.mem_insert_of_mem t rfl)) (by
        change (s.data k.current).state ≠ _
        rw [hdc, hrun]
        simp) (Or.inl rfl)
    have hdc4 := (congrFun h4 k.current).trans (Function.update_self _ _ _)
    have hcq' : readyAt (priority2order ((Kernel.setTaskState { k with toTasks := s } k.current
        .ready).data k.current).prio) = .ok (.ready c) := by
      rw [hdc4]
      change readyAt (priority2order (s.data k.current).prio) = _
      rw [hdc]
      exact hcq
    obtain ⟨h5, h6⟩ := h3.pushHead (t := k.current) (i := c) (Set.mem_insert_of_mem t rfl) h0
      (Set.notMem_empty _) (Or.inl (congrArg TcbData.state hdc4)) hcq'
    rw [pair_sdiff_right hct.symm] at h5
    have hdt : (s.data t).state = .running := by rw [h2, Function.update_self]
    have hdt6 := (congrFun h6 t).trans (Function.update_of_ne hct.symm _ _)
    have hdt4 := (congrFun h4 t).trans (Function.update_of_ne hct.symm _ _)
    have hst := (congrArg TcbData.state (hdt6.trans hdt4)).trans hdt
    have h7 := h5.switchTo (ne_of_eq_of_ne hst (by simp))
    refine ⟨_, bind_of_ok hcq', _, h7.countExecution t, ((((h.scheduled_still hL h2).trans
      (Still.update h4 (Or.inr ⟨Or.inr (Or.inl ((congrArg TcbData.state hdc).trans hrun)), ?_⟩)
        fun _ => rfl)).trans (Still.update h6 (Or.inr ⟨Or.inl (congrArg TcbData.state hdc4), ?_⟩)
          ?_)).trans (Kernel.switchTo_still _ (Or.inr hst) _)).trans
            (Kernel.countExecution_still _ _ _)⟩
    · simp
    · simp
    · exact fun m => Function.update_of_ne (by simp) _ _
  · obtain ⟨k', h3, h4, h5, -⟩ := h.putBack hL h1 h2
    exact ⟨k', h3, L, h4, h5 ▸ Still.refl _ _⟩

/-! ## 3. The suspended tasks -/

/-- A round of the loop that finds the task `t` due: it becomes ready. -/
theorem Rest.wakeDue (h : Rest k L) (ht : t ∈ L .suspend) :
    ∃ s k₁ L₁, k.popTask t .suspend = .ok { k with toTasks := s } ∧
      (do
        let k := Kernel.setTaskState { k with toTasks := s } t .ready
        k.pushTail t (← readyAt (priority2order (k.tcb t).prio))) = .ok k₁ ∧
      Rest k₁ L₁ ∧ L₁ = Function.update (Function.update L .suspend ((L .suspend).erase t)) (.ready 0)
        (k.toTasks.queued t (L (.ready 0))) ∧
      k₁.current = k.current ∧ k₁.timerCount = k.timerCount ∧
      k₁.data = Function.update k.data t { k.data t with state := .ready } := by
  obtain ⟨hc, h0⟩ := h.placed.not_held ht
  have hst : (k.data t).state = .suspended := h.placed.state_of_mem ht
  have hrt : (k.data t).prio = prioRt := (h.task t).realTime ((h.task t).suspended hst)
  obtain ⟨s, v, h1, h2, -, hv, h3⟩ :=
    h.toSound.popTask ht (f := id) rfl (h.task t) rfl
  rw [show k.toTasks.modify t id = k.toTasks from setState_eq_self (s := k.toTasks) rfl] at h1
  have hdt : s.data t = { k.data t with state := v } := by
    rw [h3, Function.update_self]
    rfl
  -- the task is made ready
  obtain ⟨h4, h5⟩ := h2.setTaskState (t := t) (v := .ready) (Or.inl (Set.mem_insert t _)) (by
    change (s.data t).state ≠ _
    rw [hdt]
    rcases hv with rfl | rfl
    · simp
    · change (k.data t).state ≠ _
      rw [hst]
      simp) (Or.inl rfl)
  have hdt5 := (congrFun h5 t).trans (Function.update_self _ _ _)
  -- and queued by its deadline
  have hq : readyAt (priority2order ((Kernel.setTaskState { k with toTasks := s } t
      .ready).data t).prio) = .ok (.ready 0) := by
    rw [hdt5]
    change readyAt (priority2order (s.data t).prio) = _
    rw [hdt]
    exact readyAt_priority.mpr hrt
  obtain ⟨s', h6, h7, h8, h9⟩ := h4.pushTail (t := t) (i := 0) (Set.mem_insert t _) h0
    (fun u hu => hu.resolve_right (Set.notMem_empty u)) (Or.inl (congrArg TcbData.state hdt5)) hq
  have hself := h9 (Or.inr (congrArg TcbData.state hdt5))
  rw [hself, Set.insert_sdiff_self_of_notMem hc] at h7
  rw [hself] at h8
  have hd5 : (Kernel.setTaskState { k with toTasks := s } t .ready).data =
      Function.update k.data t { k.data t with state := .ready } := by
    refine h5.trans ?_
    change Function.update s.data t { s.data t with state := .ready } = _
    rw [hdt, h3, Function.update_idem]
  have hd : s'.data = Function.update k.data t { k.data t with state := .ready } := by
    rw [h8, hd5, Function.update_idem, Function.update_self]
  -- the deadlines are what they were, and so is the place among them
  have hqueued : (Kernel.setTaskState { k with toTasks := s } t .ready).toTasks.queued t
      (L (.ready 0)) = k.toTasks.queued t (L (.ready 0)) := by
    have hu : ∀ u, ((Kernel.setTaskState { k with toTasks := s } t .ready).data u).tskDeadline =
        (k.data u).tskDeadline := fun u => by
      rw [hd5, Function.update_apply]
      split
      next e => rw [e]
      · rfl
    refine Tasks.queued_congr hu ?_ _
    refine (congrArg TcbData.realTime (congrFun hd5 t)).trans ?_
    rw [Function.update_self]
  have hct : k.current ≠ t := fun e => hc e.symm
  refine ⟨s, _, _, bind_of_ok h1, (bind_of_ok hq).trans h6,
    ⟨h7, fun hne => (congrArg TcbData.state (congrFun hd k.current)).trans ?_⟩, ?_, rfl, rfl, hd⟩
  · rw [Function.update_of_ne hct]
    exact h.current hne
  · rw [Function.update_of_ne (by simp), hqueued]

/-- **The loop over the suspended tasks** makes those of them ready that are due. The induction is
    on the part of the list that is still ahead. -/
theorem Rest.releaseDue (h : Rest k L) {fuel : Nat} (pre rest : List Tid)
    (hL : L .suspend = pre ++ rest) (hf : rest.length ≤ fuel) :
    ∃ k' L', Kernel.releaseDue fuel k rest.head? = .ok k' ∧ Rest k' L' ∧ k'.current = k.current ∧
      k'.data k.current = k.data k.current ∧
      ((∀ i, L' (.ready i) = []) ↔ (∀ i, L (.ready i) = []) ∧ ∀ u ∈ rest, k.due u = false) ∧
      Still k.data k'.data L L' := by
  induction rest generalizing k L pre fuel with
  | nil => exact ⟨k, L, by cases fuel <;> rfl, h, rfl, rfl, by simp, Still.refl _ _⟩
  | cons t rest ih =>
      obtain ⟨fuel, rfl⟩ : ∃ n, fuel = n + 1 := ⟨fuel - 1, by rw [List.length_cons] at hf; omega⟩
      have hf' : rest.length ≤ fuel := by
        rw [List.length_cons] at hf
        omega
      have ht : t ∈ L .suspend := hL ▸ List.mem_append_right pre List.mem_cons_self
      have hnext : (k.tcb t).next = rest.head? := by
        have := (h.placed.rep.chain .suspend).linked
        rw [hL] at this
        exact this.next_append
      rw [List.head?_cons]
      unfold Kernel.releaseDue
      simp only [hnext]
      by_cases hdue : k.due t = true
      · rw [if_pos hdue]
        obtain ⟨s, k₁, L₁, h1, h2, h3, hL₁, h6, h7, h8⟩ := h.wakeDue ht
        have h4 : L₁ .suspend = (L .suspend).erase t := by
          rw [hL₁, Function.update_of_ne (by simp), Function.update_self]
        have h5 : t ∈ L₁ (.ready 0) := by
          rw [hL₁, Function.update_self]
          exact Tasks.mem_queued.mpr (Or.inl rfl)
        have hct : k.current ≠ t := fun e => (h.placed.not_held ht).1 e.symm
        have hnd := (h.placed.rep.chain .suspend).nodup
        have herase : (L .suspend).erase t = pre ++ rest := by
          have hpre : t ∉ pre := by
            rw [hL] at hnd
            exact fun hm => (List.disjoint_of_nodup_append hnd) hm List.mem_cons_self
          rw [hL, List.erase_append_right _ hpre, List.erase_cons_head]
        obtain ⟨k', L', h9, h10, h11, h12, h13, h14⟩ := ih h3 pre (h4.trans herase) hf'
        have hstill : Still k.data k₁.data L L₁ :=
          Still.update h8 (Or.inr ⟨Or.inr (Or.inr (h.placed.state_of_mem ht)), by simp⟩) fun m => by
            rw [hL₁, Function.update_of_ne (by simp), Function.update_of_ne (by simp)]
        refine ⟨k', L', ?_, h10, h11.trans h6, ?_, ?_, hstill.trans h14⟩
        · refine (bind_of_ok h1).trans ?_
          obtain ⟨q, hq, hpush⟩ := bind_eq_ok.mp h2
          exact (bind_of_ok hq).trans ((bind_of_ok hpush).trans h9)
        · rw [← h6, h12, h6, h8, Function.update_of_ne hct]
        · refine ⟨fun hall => ?_, fun hall => ?_⟩
          · have := (h13.mp hall).1 0
            rw [this] at h5
            exact absurd h5 List.not_mem_nil
          · have := hall.2 t List.mem_cons_self
            rw [hdue] at this
            cases this
      · rw [if_neg hdue]
        have hL' : L .suspend = (pre ++ [t]) ++ rest := by simp [hL]
        obtain ⟨k', L', h1, h2, h3, h4, h5, h6⟩ := ih h (pre ++ [t]) hL' hf'
        refine ⟨k', L', h1, h2, h3, h4, h5.trans ?_, h6⟩
        rw [List.forall_mem_cons]
        simp [hdue]

/-! ## 4. The handler -/

/-- The interrupt does no harm: a task is suspended, and a real-time task that runs has another
    ready task, or one that becomes ready now, beside it. -/
def Kernel.TickSafe (k : Kernel) (tc pc : Nat) : Prop :=
  (∃ t, (k.tcb t).state = .suspended) ∧
    (k.cur.realTime = true →
      (∃ t, t ≠ tidNull ∧ (k.tcb t).state = .ready) ∨
        ∃ t, (k.tcb t).state = .suspended ∧
          Kernel.due { k with timerCount := Kernel.correctRound tc pc } t = true)

instance (k : Kernel) (tc pc : Nat) : Decidable (k.TickSafe tc pc) := by
  unfold Kernel.TickSafe
  infer_instance

/-- The suspended list holds the suspended tasks. -/
theorem Rest.mem_suspend (h : Rest k L) : t ∈ L .suspend ↔ (k.data t).state = .suspended := by
  refine ⟨h.placed.state_of_mem, fun hs => ?_⟩
  have h0 : t ≠ tidNull := fun e => by
    have := ((h.task t).null e).2.2
    rw [hs] at this
    simp at this
  have hc : t ≠ k.current := fun e => by
    have := h.current (e ▸ h0)
    rw [← e, hs] at this
    cases this
  have := h.placed.home t h0 hc
  unfold InPlace at this
  rw [hs] at this
  exact this

/-- Some ready queue is not empty if and only if a task is ready. -/
theorem Rest.ready_empty (h : Rest k L) :
    (∀ i, L (.ready i) = []) ↔ ¬ ∃ t, t ≠ tidNull ∧ (k.data t).state = .ready := by
  refine ⟨fun hL ⟨t, h0, hs⟩ => ?_, fun hno i => ?_⟩
  · have hc : t ≠ k.current := fun e => by
      have := h.current (e ▸ h0)
      rw [← e, hs] at this
      cases this
    obtain ⟨i, -, hm⟩ := h.placed.mem_of_ready h0 hc hs
    rw [hL i] at hm
    exact List.not_mem_nil hm
  · refine List.eq_nil_iff_forall_not_mem.mpr fun t ht => hno ⟨t, ?_, h.placed.state_of_mem ht⟩
    exact (h.placed.not_held ht).2

/-- **The handler returns if and only if the interrupt does no harm**, and keeps the kernel at
    rest. -/
theorem Rest.timer0IrqHandler (h : Rest k L) (tc pc : Nat) :
    Ends (k.timer0IrqHandler tc pc) (fun _ => ¬ k.TickSafe tc pc)
      fun k' => k.TickSafe tc pc ∧ Chosen k k' L := by
  set k₀ : Kernel := { k with timerCount := Kernel.correctRound tc pc } with hk₀
  have h₀ : Rest k₀ L := h.frame rfl rfl rfl rfl (fun _ => rfl) rfl
  have hhead : (k.queue .suspend).head = (L .suspend).head? := (h.placed.rep.chain .suspend).head
  unfold Kernel.timer0IrqHandler
  cases hL : L .suspend with
  | nil =>
      rw [hL, List.head?_nil] at hhead
      simp only [hhead]
      intro hsafe
      obtain ⟨⟨t, ht⟩, -⟩ := hsafe
      have := h.mem_suspend.mpr ht
      rw [hL] at this
      exact List.not_mem_nil this
  | cons t l =>
      rw [hL, List.head?_cons] at hhead
      simp only [hhead]
      have hst : (k.data t).state = .suspended := h.placed.state_of_mem (hL ▸ List.mem_cons_self)
      have hself : k₀.setTaskState t .suspended = k₀ :=
        congrArg (fun s => { k₀ with toTasks := s }) (setState_eq_self (s := k₀.toTasks) hst)
      change Ends (Kernel.releaseDue (2 ^ 32) (k₀.setTaskState t .suspended) (some t) >>= _) _ _
      rw [hself]
      have hlen : (t :: l).length ≤ 2 ^ 32 := by
        have h1 := (h.placed.rep.chain .suspend).nodup.length_le_card
        rw [hL, Fintype.card_fin] at h1
        omega
      obtain ⟨k', L', h1, h2, h3, h4, h5, hstill⟩ :=
        h₀.releaseDue [] (t :: l) hL hlen
      refine Ends.bind_ok h1 ?_
      have hsome : ∃ t, (k.tcb t).state = .suspended := ⟨t, hst⟩
      -- what is ready when the handler looks for the next task
      have hempty : (∀ i, L' (.ready i) = []) ↔
          ¬ ((∃ t, t ≠ tidNull ∧ (k.tcb t).state = .ready) ∨
            ∃ t, (k.tcb t).state = .suspended ∧ k₀.due t = true) := by
        rw [h5, h.ready_empty, not_or]
        refine and_congr Iff.rfl ⟨fun hall ⟨u, hu, hdue⟩ => ?_, fun hno u hu => ?_⟩
        · have := hall u (hL ▸ h.mem_suspend.mpr hu)
          rw [hdue] at this
          cases this
        · rw [Bool.eq_false_iff]
          exact fun hdue => hno ⟨u, h.mem_suspend.mp (hL ▸ hu), hdue⟩
      -- no message has moved so far
      have hchosen : ∀ {k''}, Chosen k' k'' L' → Chosen k k'' L := fun ⟨L'', h6, h7⟩ =>
        ⟨L'', h6, hstill.trans h7⟩
      have hrt : k'.cur.realTime = k.cur.realTime := by
        refine Eq.trans ?_ (congrArg TcbData.realTime h4)
        unfold Kernel.cur
        rw [h3]
        rfl
      unfold Kernel.preempt
      split
      · refine ⟨⟨hsome, fun hr => ?_⟩, hchosen h2.preemptNull⟩
        have hnull : (k.data k.current).realTime = false :=
          ((h.task _).null (h3.symm.trans ‹_›)).2.1
        rw [show k.cur.realTime = false from hnull] at hr
        cases hr
      next h0 =>
        split
        next hr =>
          refine (h2.preemptRealTime h0).mono (fun _ hall hsafe => ?_) fun k'' hk'' => ?_
          · exact hempty.mp hall (hsafe.2 (hrt ▸ hr))
          · obtain ⟨⟨i, hi⟩, h6⟩ := hk''
            refine ⟨⟨hsome, fun _ => not_not.mp fun hno => hi (hempty.mpr hno i)⟩, hchosen h6⟩
        next hr =>
          obtain ⟨k'', h6, h7⟩ := h2.preemptOther h0
          exact Ends.intro_ok h6 ⟨⟨hsome, fun e => absurd (hrt.trans e) hr⟩, hchosen h7⟩

end Rtx
