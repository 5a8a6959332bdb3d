/-
  File:      Rtx/Kern/Deadline.lean
  Subject:   The task with the earliest deadline, in every run.

  The timer interrupt moves real-time tasks from the suspended list to the ready queue and may
  switch from one to another; it keeps the order of their deadlines. With the calls this gives the
  step lemma, and from the boot on `EarliestFirst` in every run (`earliest_first`) in which no
  task is created with PRIO_RT. Such a task is in `ready_queue[RT_INDEX]` and is no real-time task
  (`rt_prio_created`).
-/
import Rtx.Kern.Edf

namespace Rtx

open Lib

variable {k k' : Kernel} {L L' : Lists} {f : Tid → Key} {c : Option Nat} {t u : Tid} {q : QId}
  {A : Tid → Prop} {e : Event} {es : List Event}

/-! ## 1. The timer interrupt -/

/-- A suspended task that is due goes to the place of its deadline. -/
theorem Edf.wakeDue {k₁ : Kernel} (hR : Rest k L) (h : Edf f none k)
    (hall : ∀ u ∈ L (.ready 0), (f u).deadline ≠ none) (ht : t ∈ L .suspend)
    (hR₁ : Rest k₁ (Function.update (Function.update L .suspend ((L .suspend).erase t)) (.ready 0)
      (k.toTasks.queued t (L (.ready 0)))))
    (hd : k₁.data = Function.update k.data t { k.data t with state := .ready }) :
    Edf f none k₁ := by
  have hkey : ∀ u, (k.data u).key = f u := h.data
  have hsleep : ∀ u ∈ L .suspend, (f u).deadline ≠ none := fun u hu => hR.sleeper h hu
  refine hR₁.edf (fun _ hu => absurd hu (Set.notMem_empty _)) (fun q => ?_)
    (fun _ _ => Before.none_left _) fun u => ?_
  · rw [Function.update_apply]
    split
    · exact isChain_queued hkey hall (hsleep t ht) (h.isChain hR.toSound _)
    rw [Function.update_apply]
    split
    · -- the rest of a sorted list is sorted
      have hsub := List.erase_sublist (a := t) (l := L .suspend)
      refine (isChain_iff_sorted hkey fun u hu => hsleep u (hsub.subset hu)).mpr ?_
      exact ((isChain_iff_sorted hkey hsleep).mp (h.isChain hR.toSound _)).sublist hsub
    · exact h.isChain hR.toSound q
  · rw [hd, Function.update_apply]
    split
    next e => exact e ▸ hkey t
    · exact hkey u

/-- The loop over the suspended tasks, by induction on the part of the list that is still ahead. -/
theorem Edf.releaseDue {fuel : Nat} (pre rest : List Tid) (hR : Rest k L) (h : Edf f none k)
    (hall : ∀ u ∈ L (.ready 0), (f u).deadline ≠ none) (hL : L .suspend = pre ++ rest) :
    Post (Kernel.releaseDue fuel k rest.head?) fun k' => k'.current = k.current ∧ Edf f none k' ∧
      ∃ L', Rest k' L' ∧ ∀ u ∈ L' (.ready 0), (f u).deadline ≠ none := by
  induction rest generalizing k L pre fuel with
  | nil =>
      rw [List.head?_nil, show Kernel.releaseDue fuel k none = .ok k by cases fuel <;> rfl]
      exact ⟨rfl, h, L, hR, hall⟩
  | cons t rest ih =>
      cases fuel with
      | zero => exact trivial
      | succ fuel =>
          have ht : t ∈ L .suspend := hL ▸ List.mem_append_right pre List.mem_cons_self
          have hnext : (k.tcb t).next = rest.head? := by
            have := (hR.placed.rep.chain .suspend).linked
            rw [hL] at this
            exact this.next_append
          rw [List.head?_cons]
          unfold Kernel.releaseDue
          simp only [hnext]
          refine Ends.ite (fun _ => ?_) fun _ => ih (pre ++ [t]) hR h hall (by simp [hL])
          obtain ⟨s, k₁, L₁, h1, h2, h3, rfl, h4, -, h5⟩ := hR.wakeDue ht
          have hnd := (hR.placed.rep.chain .suspend).nodup
          have herase : (L .suspend).erase t = pre ++ rest := by
            have hpre : t ∉ pre := by
              rw [hL] at hnd
              exact fun hm => (List.disjoint_of_nodup_append hnd) hm List.mem_cons_self
            rw [hL, List.erase_append_right _ hpre, List.erase_cons_head]
          refine Ends.bind_ok h1 ?_
          obtain ⟨q, hq, hpush⟩ := bind_eq_ok.mp h2
          refine Ends.bind_ok hq (Ends.bind_ok hpush ?_)
          refine (ih pre h3 (Edf.wakeDue hR h hall ht h3 h5) (fun u hu => ?_)
            ?_).imp fun k' hk' => ⟨hk'.1.trans h4, hk'.2⟩
          · rw [Function.update_self] at hu
            rcases Tasks.mem_queued.mp hu with rfl | hu
            · exact hR.sleeper h ht
            · exact hall u hu
          · rw [Function.update_of_ne (by simp), Function.update_self, herase]

theorem Edf.countExecution (h : Edf f c k) (t : Tid) : Edf f c (k.countExecution t) :=
  h.modifyTcb (g := fun d => { d with nthExecution := d.nthExecution + 1 }) rfl

/-- Running what the scheduler took. -/
theorem Edf.switchTo (h : Edf f (f t).deadline k) : EdfNow f (k.switchTo t) :=
  Edf.setTaskState (k := k.setCurrent t) h t .running

/-- And counting the execution of a real-time task. -/
theorem Edf.started (h : Edf f (f t).deadline k) :
    EdfNow f (if ((k.switchTo t).tcb t).realTime then (k.switchTo t).countExecution t
      else k.switchTo t) := by
  split
  · exact Edf.countExecution (Edf.switchTo h) t
  · exact Edf.switchTo h

/-- The null task makes way. -/
theorem Edf.preemptNull (h : Edf f none k) (h0 : (f tidNull).deadline = none)
    (hc : k.current = tidNull) : EdfNow f k.preemptNull := by
  have h1 := Edf.scheduler h h0
  unfold Kernel.preemptNull
  dsimp only
  split
  · exact Edf.started h1
  · rw [EdfNow, k.scheduler_current, hc, h0]
    exact Edf.forget h1

/-- A task that is no real-time task makes way for one that is. -/
theorem Edf.preemptOther (h : Edf f none k) (h0 : (f tidNull).deadline = none)
    (hc : (f k.current).deadline = none) : Post k.preemptOther (EdfNow f) := by
  have h1 := Edf.scheduler h h0
  have hcur := k.scheduler_current
  have hstay : ∀ {k' : Kernel}, k'.current = k.current → Edf f none k' → EdfNow f k' := by
    intro k' e h'
    rw [EdfNow, e, hc]
    exact h'
  unfold Kernel.preemptOther
  refine Ends.ite (fun _ => ?_) fun _ => hstay hcur h1.forget
  refine Ends.ite (fun _ => ?_) fun hrt => ?_
  · refine Ends.bind Ends.trivial fun q _ => ?_
    have h2 := (h1.setTaskState k.scheduler.1.current .ready).pushHead (t := k.scheduler.1.current)
      (by rw [hcur]; exact hc) q
    exact Edf.countExecution (Edf.switchTo h2) _
  · refine Ends.bind Ends.trivial fun q _ => hstay hcur ?_
    exact (h1.forget).pushHead ((h1.deadline _).mpr (Bool.eq_false_iff.mpr hrt)) q

/-- The deadline in the key is the one in the control block. -/
theorem Edf.deadline_eq (h : Edf f c k) {x : Nat} (hx : x ∈ (f t).deadline) :
    x = (k.data t).tskDeadline := by
  rw [← h.data t, TcbData.key] at hx
  by_cases hr : (k.data t).realTime = true
  · rw [if_pos hr] at hx
    exact (Option.some.inj hx).symm
  · rw [if_neg hr] at hx
    cases hx

/-- The running task goes back to its queue, and the task `t` with the earlier deadline runs. -/
theorem Edf.overtaken {l : List Tid} {s : Tasks Tid QId} (hR : Rest k L) (h : Edf f none k)
    (hall : ∀ u ∈ L (.ready 0), (f u).deadline ≠ none) (h0 : k.current ≠ tidNull)
    (hrt : k.cur.realTime = true) (hL : L (.ready 0) = t :: l)
    (h1 : Sound { k with toTasks := s } (Function.update L (.ready 0) l) (insert t {k.current}) ∅)
    (h2 : s.data = Function.update k.data t { k.data t with state := .running })
    (hlt : (k.data t).tskDeadline < (k.data k.current).tskDeadline) :
    Post (do
      let k₁ ← Kernel.pushTail { k with toTasks := s } k.current
        (← readyAt (priority2order (s.data k.current).prio))
      return ((k₁.setTaskState k.current .ready).switchTo t).countExecution t) (EdfNow f) := by
  have hkey : ∀ u, (s.data u).key = f u := fun u => by
    rw [h2, Function.update_apply]
    split
    next e => exact e ▸ h.data t
    · exact h.data u
  have hmem : t ∈ L (.ready 0) := hL ▸ List.mem_cons_self
  have hct : k.current ≠ t := fun e => (hR.placed.not_held hmem).1 e.symm
  have hdc : s.data k.current = k.data k.current := by rw [h2, Function.update_of_ne hct]
  have hdl : (f k.current).deadline = some (k.data k.current).tskDeadline := by
    rw [← h.data, TcbData.key]
    exact if_pos hrt
  have hq : readyAt (priority2order (s.data k.current).prio) = .ok (.ready 0) := by
    rw [hdc]
    exact readyAt_priority.mpr ((hR.task _).realTime hrt)
  obtain ⟨s', h3, h4, h5, -⟩ := h1.pushTail (t := k.current) (i := 0)
    (Set.mem_insert_of_mem t rfl) h0 (fun u hu => absurd hu (Set.notMem_empty u))
    (Or.inr (Or.inl ((congrArg TcbData.state hdc).trans (hR.current h0)))) hq
  rw [Function.update_idem, Function.update_self] at h4
  -- the queue without its head, and what its members have to wait for
  have hsub : ∀ u ∈ l, (f u).deadline ≠ none := fun u hu =>
    hall u (hL ▸ List.mem_cons_of_mem t hu)
  have hchain := h.isChain hR.toSound (.ready 0)
  rw [hL] at hchain
  have hfirst : ∀ u ∈ l, (k.data t).tskDeadline ≤ (k.data u).tskDeadline :=
    (List.pairwise_cons.mp ((isChain_iff_sorted (s := k.toTasks) h.data
      fun u hu => hall u (hL ▸ hu)).mp hchain)).1
  refine Ends.bind_ok hq (Ends.bind_ok h3 (Edf.countExecution (Edf.switchTo ?_) t))
  refine h4.edf (fun _ hu => absurd hu (Set.notMem_empty _)) (fun q => ?_) (fun u hu => ?_)
    fun u => ?_
  · rw [Function.update_apply]
    split
    · exact isChain_queued hkey hsub (by rw [hdl]; simp) hchain.tail
    · exact h.isChain hR.toSound q
  · rw [Function.update_self] at hu
    intro x hx y hy
    rw [h.deadline_eq (t := t) hx, h.deadline_eq hy]
    rcases Tasks.mem_queued.mp (List.mem_of_mem_head? hu) with rfl | hu
    · exact hlt.le
    · exact hfirst u hu
  · rw [show Tasks.data _ u = _ from congrFun h5 u, Function.update_apply]
    split
    next e => exact e ▸ hkey k.current
    · exact hkey u

/-- **A real-time task makes way for one whose deadline is earlier**, and only for such a one. -/
theorem Edf.preemptRealTime (hR : Rest k L) (h : Edf f none k)
    (hall : ∀ u ∈ L (.ready 0), (f u).deadline ≠ none) (h0 : k.current ≠ tidNull)
    (hrt : k.cur.realTime = true) : Post k.preemptRealTime (EdfNow f) := by
  have hrun := hR.current h0
  have hkey : ∀ u, (k.data u).key = f u := h.data
  have hdl : ∀ {u}, (k.data u).realTime = true → (f u).deadline = some (k.data u).tskDeadline :=
    fun hr => by rw [← hkey, TcbData.key, if_pos hr]
  unfold Kernel.preemptRealTime
  refine Ends.ite (fun e => ?_) fun _ => ?_
  · rw [show k.cur.state = .running from hrun] at e
    simp at e
  refine Ends.ite (fun _ => ?_) fun e => absurd hrun e
  rcases hR.toSound.scheduler with ⟨hs, -⟩ | ⟨i, t, l, s, hL, hj, ht0, htH, hs, h1, h2⟩
  · -- the null task has no ready queue to go back to
    rw [hs]
    have hnull : (k.tcb tidNull).realTime = false := ((hR.task tidNull).null rfl).2.1
    simp only [hnull]
    unfold Kernel.putBack
    rw [show (k.tcb tidNull).prio = prioNull from ((hR.task tidNull).null rfl).1]
    exact trivial
  rw [hs]
  have hmem : t ∈ L (.ready i) := hL ▸ List.mem_cons_self
  have hct : k.current ≠ t := fun e => htH e.symm
  have hdt : s.data t = { k.data t with state := .running } := by rw [h2, Function.update_self]
  have hdc : s.data k.current = k.data k.current := by rw [h2, Function.update_of_ne hct]
  -- what was taken goes back if nothing in the first queue is before the running task
  have hback : (∀ u ∈ (L (.ready 0)).head?, Before (f k.current).deadline (f u).deadline) →
      Post (Kernel.putBack { k with toTasks := s } t) (EdfNow f) := fun hh => by
    obtain ⟨k', h3, h4, h5, h6⟩ := hR.putBack hL h1 h2
    refine Ends.intro_ok h3 ?_
    rw [EdfNow, h6]
    exact h4.edf (fun _ hu => absurd hu (Set.notMem_empty _)) (fun q => h.isChain hR.toSound q) hh
      fun u => by rw [h5]; exact hkey u
  by_cases hi : i = 0
  · subst hi
    have hrt' : (k.data t).realTime = true := by
      by_contra hne
      exact hall t hmem ((h.deadline t).mpr (Bool.eq_false_iff.mpr hne))
    refine Ends.ite (fun _ => ?_) fun hne => ?_
    · have hdt' : (s.data t).tskDeadline = (k.data t).tskDeadline := by rw [hdt]
      have hdc' : (s.data k.current).tskDeadline = (k.data k.current).tskDeadline := by rw [hdc]
      refine Ends.ite (fun hlt => ?_) fun hle => hback fun u hu => ?_
      · exact Edf.overtaken (k := k) hR h hall h0 hrt hL h1 h2 ((hdt'.symm.trans_lt hlt).trans_eq hdc')
      · -- the running task stays before the head of the queue
        rw [hL] at hu
        obtain rfl := Option.some.inj hu
        rw [hdl hrt, hdl hrt']
        intro x hx y hy
        cases hx
        cases hy
        exact not_lt.mp fun e => hle ((hdt'.trans_lt e).trans_eq hdc'.symm)
    · exact absurd ((congrArg TcbData.realTime hdt).trans hrt') hne
  · have hfirst : L (.ready 0) = [] := hj 0 (Fin.pos_of_ne_zero hi)
    refine Ends.ite (fun e => ?_) fun _ => hback fun u hu => ?_
    · -- a real-time task is in the first queue
      have hp := (hR.task t).realTime ((congrArg TcbData.realTime hdt).symm.trans e)
      have hq := (hR.placed.of_mem hmem).2 i rfl
      rw [show (k.data t).prio = order2priority (0 : Fin 5).val from hp] at hq
      obtain rfl : i = 0 := QId.ready.inj (Except.ok.inj (hq.symm.trans (readyAt_priority.mpr rfl)))
      exact absurd rfl hi
    · rw [hfirst] at hu
      cases hu

/-- **The timer interrupt** keeps the order. -/
theorem Timely.timer0IrqHandler (h : Timely A f k) (hR : Rest k L) (tc pc : Nat) :
    Post (k.timer0IrqHandler tc pc) (EdfNow f) := by
  set k₀ : Kernel := { k with timerCount := Kernel.correctRound tc pc }
  have hR₀ : Rest k₀ L := hR.frame rfl rfl rfl rfl (fun _ => rfl) rfl
  have h₀ : Edf f none k₀ := Edf.frame (Edf.forget h.edf) rfl rfl
  have hhead : (k.queue .suspend).head = (L .suspend).head? := (hR.placed.rep.chain .suspend).head
  unfold Kernel.timer0IrqHandler
  cases hL : L .suspend with
  | nil =>
      rw [hL, List.head?_nil] at hhead
      simp only [hhead]
      exact trivial
  | cons t l =>
      rw [hL, List.head?_cons] at hhead
      simp only [hhead]
      have hst : (k.data t).state = .suspended := hR.placed.state_of_mem (hL ▸ List.mem_cons_self)
      have hself : k₀.setTaskState t .suspended = k₀ :=
        congrArg (fun s => { k₀ with toTasks := s }) (setState_eq_self (s := k₀.toTasks) hst)
      change Ends (Kernel.releaseDue (2 ^ 32) (k₀.setTaskState t .suspended) (some t) >>= _) _ _
      rw [hself]
      refine Ends.bind (Edf.releaseDue [] (t :: l) hR₀ h₀
        (fun u hu => h.member hR.toSound hu) hL) fun k₁ ⟨_, h1, L₁, hR₁, hall⟩ => ?_
      have hnull := hR₁.null_deadline h1
      unfold Kernel.preempt
      refine Ends.ite (fun hc => ?_) fun h0 => ?_
      · exact Edf.preemptNull h1 hnull hc
      refine Ends.ite (fun hrt => ?_) fun hrt => ?_
      · exact Edf.preemptRealTime hR₁ h1 hall h0 hrt
      · exact Edf.preemptOther h1 hnull ((h1.deadline _).mpr (Bool.eq_false_iff.mpr hrt))

/-! ## 2. The boot -/

/-- Creating and queueing a task of another priority than PRIO_RT, with no task running. -/
theorem Timely.boot {info : TaskInit} (h : Timely A f k) (hc : k.current = tidNull)
    (ht : t ≠ tidNull) (hp : ∃ i : Fin 5, info.prio = order2priority i.val)
    (hrt : info.prio ≠ prioRt) :
    Post (k.kTskCreateNew info t) fun r => r.1.current = tidNull ∧
      (r.2 = rtxErr ∧ Timely A f r.1 ∨ r.2 = rtxOk ∧ ∀ q, Post (r.1.pushTail t q) fun k' =>
        k'.current = tidNull ∧ ∃ A' f', Timely A' f' k') := by
  refine ((Edf.createNew h.edf info t).both (h.indexed.createNew info ht)).imp fun r hr => ?_
  obtain ⟨hed, hcur, hix⟩ := hr
  refine ⟨hcur.trans hc, ?_⟩
  obtain ⟨-, he, h1⟩ | ⟨-, hok, -, h1⟩ := hix
  · refine Or.inl ⟨he, h1, ?_, h.proper⟩
    rw [EdfNow, hcur]
    exact hed.1 he
  refine Or.inr ⟨hok, fun q => ?_⟩
  set f' := Function.update f t ⟨info.prio, none⟩
  have hself : f' t = ⟨info.prio, none⟩ := Function.update_self _ _ _
  have hnull : f' tidNull = f tidNull := Function.update_of_ne ht.symm _ _
  have h2 : Edf f' (f tidNull).deadline r.1 := hc ▸ hed.2 hok
  refine (((h1 hp).pushTail (Or.inr rfl) q).both
    (h2.pushTail (t := t) (by rw [hself]) q)).imp fun k' hk' => ?_
  obtain ⟨h3, h4, h5⟩ := hk'
  have hcur' : k'.current = tidNull := h4.trans (hcur.trans hc)
  refine ⟨hcur', _, f', h3, ?_, fun u hu hprio => ?_⟩
  · rw [EdfNow, hcur', hnull]
    exact h5
  · by_cases e : u = t
    · rw [e, hself] at hprio
      exact absurd hprio hrt
    · rw [show f' u = f u from Function.update_of_ne e _ _] at hprio ⊢
      exact h.proper u (hu.resolve_right e) hprio

/-- The priority has a ready queue, and not that of the real-time tasks. -/
def BootPrio (prio : Nat) : Prop :=
  (∃ i : Fin 5, prio = order2priority i.val) ∧ prio ≠ prioRt

theorem Timely.createSystemTasks (h : Timely A f k) (ts : List (Tid × TaskInit))
    (hc : k.current = tidNull) (hts : ∀ x ∈ ts, x.1 ≠ tidNull ∧ BootPrio x.2.prio) :
    Post (Kernel.createSystemTasks ts k) fun r => r.1.current = tidNull ∧
      ∃ A' f', Timely A' f' r.1 := by
  induction ts generalizing k A f with
  | nil => exact ⟨hc, A, f, h⟩
  | cons x ts ih =>
      obtain ⟨t, info⟩ := x
      obtain ⟨h0, hp, hrt⟩ := hts _ List.mem_cons_self
      unfold Kernel.createSystemTasks
      refine Ends.bind (h.boot hc h0 hp hrt) fun r hr => ?_
      obtain ⟨k₁, x⟩ := r
      obtain ⟨hc₁, ⟨rfl, h1⟩ | ⟨rfl, h1⟩⟩ := hr
      · exact Ends.ite (fun e => absurd e rtxErr_ne_rtxOk) fun _ => ⟨hc₁, A, f, h1⟩
      refine Ends.ite (fun _ => ?_) fun e => absurd rfl e
      refine Ends.bind Ends.trivial fun q _ => Ends.bind (h1 q) fun k₂ hk₂ => ?_
      obtain ⟨h2, A', f', h3⟩ := hk₂
      exact ih h3 h2 fun y hy => hts y (List.mem_cons_of_mem _ hy)

theorem Timely.createBootTasks {ts : List TaskInit} {j : Nat} (h : Timely A f k)
    (hc : k.current = tidNull) (hj : 1 ≤ j) (hts : ∀ x ∈ ts, BootPrio x.prio) :
    Post (Kernel.createBootTasks j ts k) fun k' => k'.current = tidNull ∧
      ∃ A' f', Timely A' f' k' := by
  induction ts generalizing k A f j with
  | nil => exact ⟨hc, A, f, h⟩
  | cons info ts ih =>
      obtain ⟨hp, hrt⟩ := hts _ List.mem_cons_self
      have hts' : ∀ x ∈ ts, BootPrio x.prio := fun x hx => hts x (List.mem_cons_of_mem _ hx)
      unfold Kernel.createBootTasks
      refine Ends.bind (tcbAt_ends j).post fun t ht => ?_
      have h0 : t ≠ tidNull := fun e => by
        rw [e] at ht
        simp only [tidNull, Fin.val_zero] at ht
        omega
      refine Ends.bind (h.boot hc h0 hp hrt) fun r hr => ?_
      obtain ⟨k₁, x⟩ := r
      obtain ⟨hc₁, ⟨rfl, h1⟩ | ⟨rfl, h1⟩⟩ := hr
      · exact Ends.ite (fun e => absurd e rtxErr_ne_rtxOk) fun _ => ih h1 hc₁ (by omega) hts'
      refine Ends.ite (fun _ => ?_) fun e => absurd rfl e
      refine Ends.bind Ends.trivial fun q _ => Ends.bind (h1 q) fun k₂ hk₂ => ?_
      obtain ⟨h2, A', f', h3⟩ := hk₂
      exact ih h3 h2 (by omega) hts'

theorem Timely.createUartMailbox (h : Timely A f k) (hc : k.current = tidNull) :
    Post k.createUartMailbox fun r => r.1.current = tidNull ∧ Timely A f r.1 := by
  have h1 := h.indexed.createUartMailbox
  unfold Kernel.createUartMailbox at h1 ⊢
  refine ends_bind.mpr (((ends_bind.mp h1).both (k.mpoolAlloc_ends _ _)).imp fun r hr => ?_)
  obtain ⟨k₁, ptr⟩ := r
  obtain ⟨h2, mem, rfl⟩ := hr
  cases ptr with
  | none => exact ⟨hc, h2, Edf.frame h.edf rfl rfl, h.proper⟩
  | some a =>
      refine ⟨hc, h2, ⟨h.edf.next, fun q => ?_, h.edf.data⟩, h.proper⟩
      change Tasks.Leads _ (Function.update k.queue (.waiting .uart) _ q).head
      rw [Function.update_apply]
      split
      · exact Tasks.Leads.none
      · exact h.edf.head q

theorem bootPrio_of {tasks : List TaskInit}
    (hprio : ∀ t ∈ tasks, t.prio ∈ [high, medium, low, lowest]) : ∀ x ∈ tasks, BootPrio x.prio := by
  refine fun x hx => ⟨bootPrio hprio x hx, fun e => ?_⟩
  have := hprio x hx
  rw [e] at this
  exact absurd this (by decide)

/-- **`k_tsk_init`** leaves every task in its place. -/
theorem Blank.kTskInit_timely (h : Blank k) (hprev : ∀ t, (k.tcb t).prev = none)
    {tasks : List TaskInit} (hts : ∀ x ∈ tasks, BootPrio x.prio) :
    Post (k.kTskInit tasks) fun r => r.2 = rtxOk → ∃ A f, Timely A f r.1 := by
  unfold Kernel.kTskInit
  refine Ends.ite (fun _ e => absurd e rtxErr_ne_rtxOk) fun _ => ?_
  refine Ends.bind (h.clear.createNull.both (h.clear.createNull_indexed hprev)) fun r hr => ?_
  obtain ⟨hb, hix⟩ := hr
  refine Ends.ite (fun _ e => absurd e rtxErr_ne_rtxOk) fun hx => ?_
  obtain ⟨h1, -⟩ := hb (not_not.mp hx)
  -- every list is empty, and no task is a real-time task
  have h2 : Timely (fun _ => False) (fun u => (r.1.data u).key) (r.1.setCurrent tidNull) := by
    refine ⟨hix (not_not.mp hx), ?_, fun _ hu => hu.elim⟩
    exact Sound.edf (k := r.1.setCurrent tidNull) (h1.sound.setCurrent _)
      (fun _ hu => absurd hu (Set.notMem_empty _)) (fun _ => List.isChain_nil)
      (fun _ hu => (by cases hu)) fun _ => rfl
  refine Ends.bind (h2.createSystemTasks Kernel.systemTasks rfl ?_)
    fun r₂ hr₂ => ?_
  · unfold BootPrio
    decide
  obtain ⟨hc₂, A₂, f₂, h3⟩ := hr₂
  refine Ends.ite (fun _ e => absurd e rtxErr_ne_rtxOk) fun _ => ?_
  refine Ends.bind (h3.createUartMailbox hc₂) fun r₃ hr₃ => ?_
  obtain ⟨hc₃, h4⟩ := hr₃
  refine Ends.ite (fun _ e => absurd e rtxErr_ne_rtxOk) fun _ => ?_
  refine Ends.bind (h4.createBootTasks hc₃ (j := 1) le_rfl hts) fun k₄ ⟨hc₄, A₄, f₄, h5⟩ _ => ?_
  refine ⟨A₄, f₄, h5.indexed.runScheduled, Edf.runScheduled ?_ h5.edf, h5.proper⟩
  refine (h5.edf.deadline _).mpr ?_
  exact ((h5.indexed.links.data tidNull).null rfl).2.1

theorem Booted.timely (h : Booted k) : ∃ A f, Timely A f k := by
  obtain ⟨m, bytes, tasks, hk, -, hprio⟩ := h
  have hpost : Post ((Kernel.reset m bytes).kRtxInit buddy tasks) fun r =>
      r.2 = rtxOk → ∃ A f, Timely A f r.1 := by
    unfold Kernel.kRtxInit
    refine Ends.ite (fun _ e => absurd e rtxErr_ne_rtxOk) fun _ => ?_
    refine Ends.ite (fun _ e => absurd e rtxErr_ne_rtxOk) fun _ => ?_
    refine Ends.bind ((blank_memInit m bytes).kTskInit_timely (fun _ => rfl) (bootPrio_of hprio))
      fun r hr => ?_
    exact Ends.ite (fun _ e => absurd e rtxErr_ne_rtxOk) fun hx _ => hr (not_not.mp hx)
  exact hpost.of_ok hk rfl

/-! ## 3. One event -/

/-- The event is a `k_tsk_create` with PRIO_RT. -/
def Kernel.CreatesRtTask (k : Kernel) : Event → Prop
  | .call (.tskCreate _ prio stackSize) => k.CreatesRt prio stackSize
  | _ => False

instance (k : Kernel) (e : Event) : Decidable (k.CreatesRtTask e) :=
  match e with
  | .call (.tskCreate _ prio stackSize) => inferInstanceAs (Decidable (k.CreatesRt prio stackSize))
  | .call (.memAlloc _) | .call (.memDealloc _) | .call .tskExit | .call .tskYield
  | .call (.tskSetPrio ..) | .call (.tskGet ..) | .call .tskGettid | .call (.tskLs ..)
  | .call (.mbxCreate _) | .call (.mbxSend ..) | .call (.mbxSendNb ..) | .call (.mbxRecv ..)
  | .call (.mbxRecvNb ..) | .call (.mbxLs ..) | .call (.mbxGet _) | .call (.rtTskSet _)
  | .call .rtTskSusp | .call (.rtTskGet ..) | .resume | .timer .. | .overwrite .. => .isFalse id

theorem Edf.unchanged (h : EdfNow f k) (hk : Unchanged k k') : EdfNow f k' := by
  rcases hk with rfl | ⟨e, rfl⟩
  · exact h
  · exact Edf.setErrno h e

section Step

variable (h : Timely A f k) (hR : Rest k L)
include h hR

/-- The calls that create no task. -/
theorem Timely.svcOther {c : Call} (h0 : k.current ≠ tidNull) (hp : k.pend k.current = none)
    (ht : k.Tame (.call c)) (hc : ∀ taskEntry prio stackSize,
      c ≠ .tskCreate taskEntry prio stackSize) :
    Post (k.svcHandler c) fun r => ∃ f', EdfNow f' r.1 ∧ Proper A f' := by
  have hnull := hR.null_deadline h.edf
  have hkeep : ∀ {k' : Kernel}, EdfNow f k' → ∃ f', EdfNow f' k' ∧ Proper A f' := fun h' =>
    ⟨f, h', h.proper⟩
  cases c with
  | memAlloc size =>
      refine Ends.bind (k.mpoolAlloc_ends mpidIram1 size).post fun r hr => ?_
      obtain ⟨m, hr⟩ := hr
      exact hkeep (hr ▸ Edf.frame h.edf rfl rfl)
  | memDealloc ptr =>
      refine Ends.bind (k.mpoolDealloc_ends mpidIram1 ptr).post fun r hr => ?_
      obtain ⟨m, hr⟩ := hr
      exact hkeep (hr ▸ Edf.frame h.edf rfl rfl)
  | tskCreate taskEntry prio stackSize => exact absurd rfl (hc taskEntry prio stackSize)
  | tskExit => exact hkeep (Edf.runScheduled hnull h.edf)
  | tskYield => exact Ends.bind (Edf.kTskYield hnull h.edf) fun _ hr => hkeep hr
  | tskSetPrio taskId prio => exact Ends.bind (h.kTskSetPrio hR h0 taskId prio) fun _ hr => hr
  | tskGet tid buffer msp psp =>
      exact Ends.bind (k.kTskGet_unchanged _ _ _ _) fun _ hr => hkeep (Edf.unchanged h.edf hr)
  | tskGettid => exact hkeep h.edf
  | tskLs buf count => exact hkeep (Edf.unchanged h.edf (k.kTskLs_unchanged buf count))
  | mbxCreate size => exact Ends.bind (Edf.kMbxCreate hR h.edf h0 size) fun _ hr => hkeep hr
  | mbxSend receiverTid buf => exact Ends.bind (Edf.kSendMsg hR h.edf ht) fun _ hr => hkeep hr
  | mbxSendNb receiverTid buf =>
      exact Ends.bind (Edf.kSendMsgNb hR h.edf receiverTid buf) fun _ hr => hkeep hr
  | mbxRecv buf len => exact Ends.bind (Edf.kRecvMsg hR h.edf h0 ht) fun _ hr => hkeep hr
  | mbxRecvNb buf len => exact Ends.bind (Edf.kRecvMsgNb hR h.edf h0 ht) fun _ hr => hkeep hr
  | mbxLs buf count => exact hkeep (Edf.unchanged h.edf (k.kMbxLs_unchanged buf count))
  | mbxGet tid =>
      exact Ends.bind (k.kMbxGet_unchanged _) fun _ hr => hkeep (Edf.unchanged h.edf hr)
  | rtTskSet tv => exact Ends.bind (h.kRtTskSet hR h0 hp tv) fun _ hr => hr
  | rtTskSusp => exact Ends.bind (h.kRtTskSusp hR) fun _ hr => hr
  | rtTskGet tid buffer =>
      exact Ends.bind (k.kRtTskGet_unchanged _ _) fun _ hr => hkeep (Edf.unchanged h.edf hr)

/-- A call of the null task, which only yields, and of any other task. -/
theorem Timely.svcHandler {c : Call} (hl : k.Legal (.call c)) (ht : k.Tame (.call c))
    (hrt : ¬ k.CreatesRtTask (.call c)) :
    Post (k.svcHandler c) fun r => ∃ A' f', Timely A' f' r.1 := by
  obtain ⟨hp, hnull⟩ := hl
  by_cases hy : c = .tskYield
  · subst hy
    refine Ends.bind (h.indexed.kTskYield.both
      (Edf.kTskYield (hR.null_deadline h.edf) h.edf)) fun r hr => ?_
    exact ⟨A, f, hr.1, hr.2, h.proper⟩
  have h0 : k.current ≠ tidNull := fun e => hy (hnull e)
  by_cases hc : ∃ taskEntry prio stackSize, c = .tskCreate taskEntry prio stackSize
  · obtain ⟨taskEntry, prio, stackSize, rfl⟩ := hc
    exact Ends.bind (h.kTskCreate hR h0 hrt) fun _ hr => hr
  · have hc' : ∀ taskEntry prio stackSize, c ≠ .tskCreate taskEntry prio stackSize :=
      fun a p s e => hc ⟨a, p, s, e⟩
    refine ((h.indexed.svcHandler h0 hc').both (h.svcOther hR h0 hp ht hc')).imp
      fun r ⟨h1, f', h2, h3⟩ => ⟨A, f', h1, h2, h3⟩

/-- **The step lemma.** -/
theorem Timely.step (hl : k.Legal e) (ht : k.Tame e) (hrt : ¬ k.CreatesRtTask e)
    (hs : k.step e = some k') : ∃ A' f', Timely A' f' k' := by
  have hpost : Post (k.exec e) fun r => ∃ A' f', Timely A' f' r.1 := by
    cases e with
    | call c => exact h.svcHandler hR hl ht hrt
    | resume =>
        unfold Kernel.exec
        cases hp : k.pend k.current with
        | none => exact ⟨A, f, h⟩
        | some p =>
            have h0 := (hR.pend k.current (by rw [hp]; simp)).1
            refine Ends.bind ((h.indexed.resumeRecv h0 p).both
              (Edf.resumeRecv hR h.edf hp)) fun r hr => ?_
            exact ⟨A, f, hr.1, hr.2, h.proper⟩
    | timer tc pc =>
        refine Ends.bind ((h.indexed.timer0IrqHandler tc pc).both
          (h.timer0IrqHandler hR tc pc)) fun r hr => ?_
        exact ⟨A, f, hr.1, hr.2, h.proper⟩
    | overwrite t buf =>
        refine ⟨A, f, h.indexed.overwrite t buf, ?_, h.proper⟩
        split
        · exact Edf.modifyTcb (t := t) (g := fun d => { d with messageHeader := some buf }) h.edf rfl
        · exact h.edf
  obtain ⟨r, hx⟩ := Kernel.step_eq_some.mp hs
  exact hpost.of_ok hx

end Step

/-! ## 4. Runs -/

/-- **Earliest deadline first**: `ready_queue[RT_INDEX]` holds real-time tasks in the order of
    their deadlines. No ready real-time task has a deadline before that of the task `scheduler`
    would take from it, nor before that of the running task if it is a real-time task. -/
structure EarliestFirst (k : Kernel) : Prop where
  realTime : ∀ t ∈ k.members (.ready 0), (k.tcb t).realTime = true
  sorted : (k.members (.ready 0)).Pairwise fun t u =>
    (k.tcb t).tskDeadline ≤ (k.tcb u).tskDeadline
  taken : (k.queue (.ready 0)).head ≠ none → ∀ u, (k.tcb u).state = .ready →
    (k.tcb u).realTime = true → (k.tcb k.scheduler.2).tskDeadline ≤ (k.tcb u).tskDeadline
  running : k.cur.realTime = true → ∀ u, (k.tcb u).state = .ready →
    (k.tcb u).realTime = true → k.cur.tskDeadline ≤ (k.tcb u).tskDeadline

/-- The order of the links says so, at rest. -/
theorem Timely.earliestFirst (h : Timely A f k) (hR : Rest k L) : EarliestFirst k := by
  have hmem : ∀ u ∈ L (.ready 0), (f u).deadline ≠ none := fun u hu => h.member hR.toSound hu
  have hsort := (isChain_iff_sorted h.edf.data hmem).mp (h.edf.isChain hR.toSound (.ready 0))
  -- a ready real-time task is in the queue
  have hready : ∀ u, (k.tcb u).state = .ready → (k.tcb u).realTime = true → u ∈ L (.ready 0) := by
    intro u hs hrt
    have h0 : u ≠ tidNull := fun e => by
      have := ((hR.task u).null e).2.1
      rw [show (k.data u).realTime = true from hrt] at this
      cases this
    have hc : u ≠ k.current := fun e => by
      have := hR.current (e ▸ h0)
      rw [← e, show (k.data u).state = .ready from hs] at this
      cases this
    obtain ⟨i, hi, hm⟩ := hR.placed.mem_of_ready h0 hc hs
    have hq := readyAt_priority.mpr (show (k.data u).prio = order2priority (0 : Fin 5).val from
      (hR.task u).realTime hrt)
    obtain rfl : i = 0 := QId.ready.inj (Except.ok.inj (hi.symm.trans hq))
    exact hm
  have hfirst : ∀ t ∈ (L (.ready 0)).head?, ∀ u ∈ L (.ready 0),
      (k.data t).tskDeadline ≤ (k.data u).tskDeadline := by
    intro t ht u hu
    cases hL : L (.ready 0) with
    | nil =>
        rw [hL] at hu
        exact absurd hu List.not_mem_nil
    | cons a l =>
        rw [hL] at ht hu hsort
        obtain rfl := Option.some.inj ht
        rcases List.mem_cons.mp hu with rfl | hu
        · exact le_rfl
        · exact (List.pairwise_cons.mp hsort).1 u hu
  have hhead := (hR.placed.rep.chain (.ready 0)).head
  refine ⟨?_, ?_, fun hne u hs hrt => ?_, fun hc u hs hrt => ?_⟩
  · rw [hR.members]
    intro t ht
    by_contra hne
    exact hmem t ht ((h.edf.deadline t).mpr (Bool.eq_false_iff.mpr hne))
  · rw [hR.members]
    exact hsort
  · obtain ⟨t, ht⟩ := Option.ne_none_iff_exists'.mp hne
    have hsch : k.scheduler.2 = t := by
      unfold Kernel.scheduler Kernel.firstReady
      rw [if_pos hne]
      simp [ht]
    rw [hsch]
    exact hfirst t (hhead ▸ ht) u (hready u hs hrt)
  · have hu := hready u hs hrt
    cases hL : L (.ready 0) with
    | nil =>
        rw [hL] at hu
        exact absurd hu List.not_mem_nil
    | cons t l =>
        have ht : t ∈ (L (.ready 0)).head? := hL ▸ rfl
        have hb := h.edf.head (.ready 0) t (hhead.trans ht) rfl
        have h1 : ∀ {v}, (k.data v).realTime = true →
            (f v).deadline = some (k.data v).tskDeadline := fun {v} hv => by
          rw [← h.edf.data v, TcbData.key]
          exact if_pos hv
        have htr : (k.data t).realTime = true := by
          by_contra hne
          exact hmem t (List.mem_of_mem_head? ht) ((h.edf.deadline t).mpr
            (Bool.eq_false_iff.mpr hne))
        exact (hb _ (h1 hc) _ (h1 htr)).trans (hfirst t ht u hu)

/-- The runs of tame steps in which no task is created with PRIO_RT. -/
theorem Timely.run (hb : Booted k) (h : Allowed Kernel.step
      (fun k e => k.Legal e ∧ k.Tame e ∧ ¬ k.CreatesRtTask e) k es)
    (hr : Lib.run Kernel.step k es = some k') : (∃ L, Rest k' L) ∧ ∃ A f, Timely A f k' :=
  run_reached (fun k => (∃ L, Rest k L) ∧ ∃ A f, Timely A f k)
    (fun _ _ _ ⟨⟨_, hR⟩, _, _, hT⟩ ⟨hl, ht, hrt⟩ hs =>
      ⟨hR.step hl ht hs, hT.step hR hl ht hrt hs⟩)
    ⟨hb.initial.imp fun _ h => h.rest, hb.timely⟩ h hr

/-- **Earliest deadline first**, in every run of tame steps in which no task is created with
    PRIO_RT and the tasks free what is theirs. -/
theorem earliest_first (hb : Booted k) (h : Allowed Kernel.step
      (fun k e => k.Legal e ∧ k.Tame e ∧ ¬ k.CreatesRtTask e ∧ k.FreesOwn e) k es)
    (hr : Lib.run Kernel.step k es = some k') : EarliestFirst k' := by
  obtain ⟨⟨L, hR⟩, A, f, hT⟩ :=
    Timely.run hb (h.mono fun _ _ he => ⟨he.1, he.2.1, he.2.2.1⟩) hr
  exact hT.earliestFirst hR

theorem earliest_first_tame : ∃ k', reached threeTasks tameEvents = some k' ∧
    EarliestFirst k' := by
  have hr : (reached threeTasks tameEvents).isSome = true := by decide +kernel
  obtain ⟨k', hk⟩ := Option.isSome_iff_exists.mp hr
  exact ⟨k', hk, earliest_first booted_threeTasks (by decide +kernel) hk⟩

/-- Two tasks created with PRIO_RT: the second waits in the queue of the real-time tasks. -/
theorem rt_prio_created : ¬ ∀ (k k' : Kernel) (es : List Event), Booted k →
    Allowed Kernel.step (fun k e => k.Legal e ∧ k.Tame e) k es →
    Lib.run Kernel.step k es = some k' → EarliestFirst k' := by
  intro h
  have hr : (reached threeTasks [.call (.tskCreate 7 prioRt 0), .call (.tskCreate 7 prioRt 0)]).any
      (fun k => (k.members (.ready 0)).any fun t => !(k.tcb t).realTime) = true := by decide +kernel
  obtain ⟨k', hk, hc⟩ := (Option.any_eq_true _ _).mp hr
  obtain ⟨t, ht, hrt⟩ := List.any_eq_true.mp hc
  have := (h _ _ _ booted_threeTasks (by decide +kernel) hk).realTime t ht
  rw [this] at hrt
  cases hrt

end Rtx
