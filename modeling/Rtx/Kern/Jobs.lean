/-
  File:      Rtx/Kern/Jobs.lean
  Subject:   Runs of timer interrupts and k_rt_tsk_susp calls, and the numbers of the jobs.

  `Orderly k L`: the lineup is sorted and the real-time task with the earliest deadline runs; both
  kinds of events keep that. The interrupt counts the task it switches to, k_rt_tsk_susp does not
  count the one it leaves the processor to. So a job is counted when it runs at once on its release,
  and never otherwise. A run of tame events from the boot leads to such a state when a real-time
  task runs behind it (`orderly_reached`).
-/
import Rtx.Kern.Deadline
import Rtx.Kern.Tick

namespace Rtx

open Lib

variable {k k' k₁ : Kernel} {L L' L₁ : Lines} {t u : Tid} {e : Event} {n : Int}

/-! ## 1. The order -/

/-- **The tasks are in line and in order**: no ready real-time task is before the running task. -/
structure Orderly (k : Kernel) (L : Lines) : Prop extends Lineup k L where
  sorted : Sorted k L
  earliest : Earliest k L k.current

instance Earliest.decidable (k : Kernel) (L : Lines) (t : Tid) : Decidable (Earliest k L t) :=
  inferInstanceAs (Decidable (∀ _, _))

instance Orderly.decidable (k : Kernel) (L : Lines) : Decidable (Orderly k L) :=
  decidable_of_iff (Lineup k L ∧ Sorted k L ∧ Earliest k L k.current)
    ⟨fun ⟨h1, h2, h3⟩ => ⟨h1, h2, h3⟩, fun h => ⟨h.toLineup, h.sorted, h.earliest⟩⟩

/-- A real-time task runs or is ready if it has a place and is not suspended. -/
theorem Lineup.active_iff (h : Lineup k L) (hrt : (k.data t).realTime = true) :
    (t = k.current ∨ t ∈ L (some 0)) ↔ (t = k.current ∨ L.Has t) ∧ t ∉ L none := by
  constructor
  · rintro (rfl | ht)
    · exact ⟨Or.inl rfl, h.held none⟩
    · refine ⟨Or.inr ⟨some 0, ht⟩, fun hn => ?_⟩
      cases h.listed.disj none (some 0) t hn ht
  · rintro ⟨rfl | ⟨q, hq⟩, hn⟩
    · exact Or.inl rfl
    · cases q with
      | none => exact absurd hq hn
      | some i =>
          obtain rfl : i = 0 := (h.member (some i) t hq).realTime.mp hrt
          exact Or.inr hq

/-- The choice of the interrupt suspends nobody and releases nobody. -/
theorem Chooses.active_iff (h : Chooses k k' L L') (hl : Lineup k L)
    (hrt : (k.data t).realTime = true) :
    (t = k'.current ∨ t ∈ L' (some 0)) ↔ (t = k.current ∨ t ∈ L (some 0)) := by
  have hrt' : (k'.data t).realTime = true :=
    (h.field TcbData.realTime (fun _ _ _ => rfl) t).trans hrt
  rw [(h.lineup hl).active_iff hrt', hl.active_iff hrt, h.places t (hl.ne_null_of_realTime hrt),
    h.suspended]

/-- A job's end suspends the caller and nobody else. -/
theorem Suspends.active_iff (h : Suspends k k' L L') (hl : Lineup k L)
    (hrt : (k.data t).realTime = true) :
    (t = k'.current ∨ t ∈ L' (some 0)) ↔ t ≠ k.current ∧ t ∈ L (some 0) := by
  rw [h.lineup.active_iff ((h.realTime t).trans hrt), h.places t (hl.ne_null_of_realTime hrt),
    h.suspended, not_or, and_left_comm, ← hl.active_iff hrt]
  exact and_congr_right fun hne => or_iff_right hne

/-- The interrupt keeps the order. -/
theorem Orderly.chooses {now : Nat} (h : Orderly k L)
    (h₁ : Releases { k with timerCount := now } k₁ L L₁) (h₂ : Chooses k₁ k' L₁ L') :
    Orderly k' L' := by
  have hl₁ := h₁.lineup h.toLineup
  have hs₁ : Sorted k₁ L₁ := h₁.sorted h.sorted
  have hrt := h₂.field TcbData.realTime fun _ _ _ => rfl
  have hdl := h₂.field TcbData.tskDeadline fun _ _ _ => rfl
  refine ⟨h₂.lineup hl₁, h₂.sorted hs₁, fun u hu hm => ?_⟩
  rw [hrt] at hu
  rw [h₂.active_iff hl₁ hu] at hm
  rw [hrt, hdl, hdl]
  exact h₂.earliest hs₁ u hu hm

/-- So does the end of a job. -/
theorem Orderly.suspends (h : Orderly k L) (h₁ : Suspends k k' L L') : Orderly k' L' := by
  refine ⟨h₁.lineup, h₁.sorted h.sorted, fun u hu hm => ?_⟩
  rw [h₁.realTime] at hu
  obtain ⟨hne, hm⟩ := (h₁.active_iff h.toLineup hu).mp hm
  rw [h₁.realTime, h₁.tskDeadline, h₁.tskDeadline, if_neg hne, if_neg h₁.others]
  exact h₁.earliest h.sorted u hm

theorem Orderly.setErrno (h : Orderly k L) (x : Errno) : Orderly (k.setErrno x) L where
  listed := h.listed.setErrno x
  held := h.held
  member := h.member
  running := h.running
  current := h.current
  null := h.null
  sorted := h.sorted
  earliest := h.earliest

/-- The lists of the kernel at rest that concern the scheduler. -/
def Lists.lines (L : Lists) : Lines := fun q => L (activeQueue q)

theorem Rest.listed {L : Lists} (h : Rest k L) : Listed k L.lines k.Loose := by
  refine ⟨fun q => ?_, fun q q' t ht ht' => ?_, fun t ht hX => ?_⟩
  · have hc := h.placed.rep.chain (activeQueue q)
    exact ⟨hc.head, hc.tail, hc.size, hc.linked, hc.nodup⟩
  · exact activeQueue_injective (h.placed.rep.disj _ _ t ht ht')
  · -- only the running task has to be free of links
    obtain ⟨hc, -⟩ := not_or.mp hX
    obtain rfl := not_not.mp hc
    exact h.placed.rep.off _ (h.placed.out _ (Or.inl rfl)) (Set.notMem_empty _)

/-- A task that was created is of the rank of its priority. -/
theorem Timely.ranked {A : Tid → Prop} {f : Tid → Key} {L : Lists} (h : Timely A f k)
    (hR : Rest k L) (h0 : t ≠ tidNull) (hs : (k.data t).state ≠ .dormant) {i : Fin 5}
    (hi : (k.data t).prio = order2priority i.val) : (k.data t).Ranked i := by
  have hf := h.edf.data t
  refine ⟨hi, fun hrt => ?_, fun e => ?_⟩
  · have hfirst : ∀ i : Fin 5, order2priority i.val = prioRt → i = 0 := by decide
    exact hfirst i (hi.symm.trans ((hR.task t).realTime hrt))
  · subst e
    have hA : A t := ((h.indexed.links.data t).created h0).mpr hs
    have hp : (f t).prio = prioRt := (congrArg Key.prio hf).symm.trans hi
    have hne := h.proper t hA hp
    by_contra hrt
    exact hne ((h.edf.deadline t).mpr (Bool.eq_false_iff.mpr hrt))

/-- At rest, and while a real-time task runs, the tasks are in line and in order. -/
theorem Timely.orderly {A : Tid → Prop} {f : Tid → Key} {L : Lists} (h : Timely A f k)
    (hR : Rest k L) (hrt : k.cur.realTime = true) : Orderly k L.lines := by
  have h0 : k.current ≠ tidNull := fun e => by
    have hn := ((hR.task k.current).null e).2.1
    rw [show (k.data k.current).realTime = true from hrt] at hn
    cases hn
  have hE := h.earliestFirst hR
  refine ⟨⟨⟨hR.listed, fun q => hR.placed.out _ (Or.inl rfl) _, fun q t ht => ?_, hR.current h0,
    ?_⟩, fun _ => ?_⟩, ?_, fun u hu hm => ⟨hrt, ?_⟩⟩
  · obtain ⟨hs, hq⟩ := hR.placed.of_mem ht
    have ht0 := (hR.placed.not_held ht).2
    cases q with
    | some i =>
        have hs' : (k.data t).state = .ready := hs
        exact h.ranked hR ht0 (by rw [hs']; simp) (readyAt_priority.mp (hq i rfl))
    | none =>
        have hs' : (k.data t).state = .suspended := hs
        have hp := (hR.task t).realTime ((hR.task t).suspended hs')
        exact h.ranked hR ht0 (by rw [hs']; simp) (i := 0) hp
  · obtain ⟨h1, h2, -⟩ := (hR.task tidNull).null rfl
    exact ⟨h1, h2⟩
  · obtain ⟨i, hi⟩ := (hR.task k.current).prio h0
    exact ⟨i, h.ranked hR h0 (by rw [hR.current h0]; simp) hi⟩
  · have hso := hE.sorted
    rw [hR.members] at hso
    exact hso
  · obtain rfl | hm := hm
    · exact le_rfl
    · exact hE.running hrt u (hR.placed.state_of_mem hm) hu

/-- **Where the runs of jobs start**: in every state that tame events reach from the boot, with no
    task created with PRIO_RT, the tasks are in line and in order while a real-time task runs. -/
theorem orderly_reached {es : List Event} (hb : Booted k) (h : Allowed Kernel.step
      (fun k e => k.Legal e ∧ k.Tame e ∧ ¬ k.CreatesRtTask e) k es)
    (hr : Lib.run Kernel.step k es = some k') (hrt : k'.cur.realTime = true) :
    ∃ L, Orderly k' L := by
  obtain ⟨⟨L, hR⟩, A, f, hT⟩ := Timely.run hb h hr
  exact ⟨_, hT.orderly hR hrt⟩

/-! ## 2. The events -/

/-- A timer interrupt, or a call of `k_rt_tsk_susp`. -/
def Event.ofJobs : Event → Bool
  | .timer .. => true
  | .call .rtTskSusp => true
  | _ => false

/-- A call of `k_rt_tsk_susp`. -/
def Event.suspends : Event → Bool
  | .call .rtTskSusp => true
  | _ => false

/-- Every task that an interrupt releases runs at once: it is the only one, and earlier than a
    real-time task that runs. -/
def Kernel.Prompt (k : Kernel) : Event → Prop
  | .timer tc pc => ∀ t ∈ k.lines none,
      Kernel.due { k with timerCount := Kernel.correctRound tc pc } t = true →
      (∀ u ∈ k.lines none,
        Kernel.due { k with timerCount := Kernel.correctRound tc pc } u = true → u = t) ∧
      (k.cur.realTime = true → (k.data t).tskDeadline < k.cur.tskDeadline)
  | _ => True

/-- What one of these events does. -/
theorem Orderly.step_cases (h : Orderly k L) (he : e.ofJobs = true) (hk : k.step e = some k') :
    (∃ tc pc k₁ L₁ L', e = .timer tc pc ∧
      Releases { k with timerCount := Kernel.correctRound tc pc } k₁ L L₁ ∧
      Chooses k₁ k' L₁ L') ∨
    (e = .call .rtTskSusp ∧ ((k.cur.realTime = true ∧ ∃ L', Suspends k k' L L') ∨
      k.cur.realTime = false ∧ k' = k.setErrno .EPERM)) := by
  obtain ⟨r, hr⟩ := Kernel.step_eq_some.mp hk
  cases e with
  | timer tc pc =>
      obtain ⟨k'', hk'', hr⟩ := bind_eq_ok.mp hr
      obtain rfl : k'' = k' := congrArg Prod.fst (Except.ok.inj hr)
      obtain ⟨k₁, L₁, L', h1, h2⟩ := h.ticks hk''
      exact Or.inl ⟨tc, pc, k₁, L₁, L', rfl, h1, h2⟩
  | call c =>
      cases c with
      | rtTskSusp =>
          obtain ⟨x, hx, hr⟩ := bind_eq_ok.mp hr
          obtain rfl : x.1 = k' := congrArg Prod.fst (Except.ok.inj hr)
          refine Or.inr ⟨rfl, ?_⟩
          by_cases hrt : k.cur.realTime = true
          · obtain ⟨k₁, L', h1, h2⟩ := h.kRtTskSusp hrt
            obtain rfl : (k₁, rtxOk) = x := Except.ok.inj (h1.symm.trans hx)
            exact Or.inl ⟨hrt, L', h2⟩
          · have hrt' := Bool.eq_false_iff.mpr hrt
            unfold Kernel.kRtTskSusp at hx
            rw [if_pos hrt'] at hx
            obtain rfl := Except.ok.inj hx
            exact Or.inr ⟨hrt', rfl⟩
      | _ => cases he
  | _ => cases he

/-! ## 3. One job -/

/-- The task `t` waits for its next job and `n` jobs are counted, or the next job has begun and is
    counted too. -/
def Job (t : Tid) (n : Int) (k : Kernel) : Prop :=
  ∃ L, Orderly k L ∧ (k.data t).realTime = true ∧
    ((t ∈ L none ∧ (k.data t).nthExecution = n) ∨
      ((t = k.current ∨ t ∈ L (some 0)) ∧ (k.data t).nthExecution = n + 1))

/-- A job that is released at a prompt interrupt runs at once. -/
theorem Orderly.prompt {tc pc : Nat} (h : Orderly k L) (hp : k.Prompt (.timer tc pc))
    (h₁ : Releases { k with timerCount := Kernel.correctRound tc pc } k₁ L L₁)
    (h₂ : Chooses k₁ k' L₁ L') (ht : t ∈ L none)
    (hdue : Kernel.due { k with timerCount := Kernel.correctRound tc pc } t = true) :
    k'.current = t := by
  unfold Kernel.Prompt at hp
  rw [h.listed.lines_eq] at hp
  obtain ⟨honly, hlt⟩ := hp t ht hdue
  have hrt₁ : ∀ u, (k₁.data u).realTime = (k.data u).realTime := h₁.restated.realTime
  have hdl₁ : ∀ u, (k₁.data u).tskDeadline = (k.data u).tskDeadline := h₁.restated.tskDeadline
  have hrt : (k.data t).realTime = true := (h.member none t ht).isRealTime.1
  have ht₁ : t ∈ L₁ (some 0) := (h₁.released t).mpr (Or.inr ⟨ht, hdue⟩)
  obtain ⟨h3, h4⟩ := h₂.earliest (h₁.sorted h.sorted) t ((hrt₁ t).trans hrt) (Or.inr ht₁)
  rw [hrt₁] at h3
  rw [hdl₁, hdl₁] at h4
  -- the task that runs now ran before, was ready or has been released
  have hact := (h₂.active_iff (h₁.lineup h.toLineup) ((hrt₁ k'.current).trans h3)).mp (Or.inl rfl)
  rw [h₁.current, h₁.released] at hact
  have hno : (k'.current = k.current ∨ k'.current ∈ L (some 0)) → False := fun hm => by
    obtain ⟨h5, h6⟩ := h.earliest k'.current h3 hm
    exact absurd (hlt h5) (not_lt.mpr (h6.trans h4))
  rcases hact with hc | hc | ⟨hc, hd⟩
  · exact (hno (Or.inl hc)).elim
  · exact (hno (Or.inr hc)).elim
  · exact honly _ hc hd

/-- A real-time task that has begun its job is not counted again. -/
theorem Orderly.not_again {now : Nat} (h : Orderly k L)
    (h₁ : Releases { k with timerCount := now } k₁ L L₁) (h₂ : Chooses k₁ k' L₁ L')
    (hrt : (k.data t).realTime = true) (ht : t = k.current ∨ t ∈ L (some 0)) :
    ¬ (k'.current ≠ k₁.current ∧ t = k'.current ∧ (k₁.data t).realTime = true) := by
  rintro ⟨hne, rfl, -⟩
  obtain ⟨h3, h4⟩ := h.earliest k'.current hrt ht
  have hcur : k₁.cur.realTime = true := by
    have := h₁.restated.realTime k.current
    unfold Kernel.cur
    rw [h₁.current]
    exact this.trans h3
  have hlt := h₂.strict hne hcur
  have hdl₁ : ∀ u, (k₁.data u).tskDeadline = (k.data u).tskDeadline := h₁.restated.tskDeadline
  have hdc : k₁.cur.tskDeadline = (k.data k.current).tskDeadline := by
    unfold Kernel.cur
    rw [h₁.current]
    exact hdl₁ k.current
  rw [hdl₁, hdc] at hlt
  exact absurd hlt (not_lt.mpr h4)

/-- **What an event does to a job.** -/
theorem Job.step (h : Job t n k) (he : e.ofJobs = true) (hp : k.Prompt e)
    (ht : e.suspends = true → k.current ≠ t) (hk : k.step e = some k') : Job t n k' := by
  obtain ⟨L, hL, hrt, hjob⟩ := h
  rcases hL.step_cases he hk with ⟨tc, pc, k₁, L₁, L', rfl, h1, h2⟩ |
    ⟨rfl, ⟨hc, L', h1⟩ | ⟨hc, rfl⟩⟩
  · have hL' := hL.chooses h1 h2
    have hrt₁ : (k₁.data t).realTime = true := (h1.restated.realTime t).trans hrt
    have hrt' : (k'.data t).realTime = true :=
      (h2.field TcbData.realTime (fun _ _ _ => rfl) t).trans hrt₁
    have hn₁ : (k₁.data t).nthExecution = (k.data t).nthExecution :=
      h1.restated.field TcbData.nthExecution (fun _ => rfl) t
    refine ⟨L', hL', hrt', ?_⟩
    rw [h2.nthExecution, hn₁]
    rcases hjob with ⟨hm, hn⟩ | ⟨hm, hn⟩
    · by_cases hdue : Kernel.due { k with timerCount := Kernel.correctRound tc pc } t = true
      · -- released, and counted
        have hcur := hL.prompt hp h1 h2 hm hdue
        have hne : k'.current ≠ k₁.current := by
          rw [hcur, h1.current]
          exact hL.ne_current hm
        rw [if_pos ⟨hne, hcur.symm, hrt₁⟩, hn]
        exact Or.inr ⟨Or.inl hcur.symm, rfl⟩
      · -- still suspended
        have hm' : t ∈ L' none := by
          rw [h2.suspended, h1.suspended]
          exact List.mem_filter.mpr ⟨hm, by simpa using hdue⟩
        rw [if_neg fun ⟨_, e, _⟩ => hL'.held none (e ▸ hm'), add_zero, hn]
        exact Or.inl ⟨hm', rfl⟩
    · rw [if_neg (hL.not_again h1 h2 hrt hm), add_zero, hn]
      refine Or.inr ⟨(h2.active_iff (h1.lineup hL.toLineup) hrt₁).mpr ?_, rfl⟩
      rw [h1.current, h1.released]
      exact hm.imp_right Or.inl
  · refine ⟨L', hL.suspends h1, (h1.realTime t).trans hrt, ?_⟩
    rw [h1.nthExecution]
    rcases hjob with ⟨hm, hn⟩ | ⟨hm, hn⟩
    · exact Or.inl ⟨(h1.suspended t).mpr (Or.inr hm), hn⟩
    · have hne := (ht rfl).symm
      exact Or.inr ⟨(h1.active_iff hL.toLineup hrt).mpr ⟨hne, hm.resolve_left hne⟩, hn⟩
  · exact ⟨L, hL.setErrno _, hrt, hjob⟩

/-- **The order holds in every state reached.** -/
theorem Orderly.run {es : List Event} (h : Orderly k L) (he : ∀ e ∈ es, e.ofJobs = true)
    (hr : Lib.run Kernel.step k es = some k') : ∃ L', Orderly k' L' := by
  refine run_reached (fun k => ∃ L, Orderly k L) (fun k₁ e k₂ ⟨L₁, h₁⟩ hok hk => ?_) ⟨L, h⟩
    (Allowed.of_events (p := fun e => e.ofJobs = true) he) hr
  rcases h₁.step_cases hok hk with ⟨_, _, _, _, L₂, -, h2, h3⟩ | ⟨-, ⟨-, L₂, h2⟩ | ⟨-, rfl⟩⟩
  · exact ⟨L₂, h₁.chooses h2 h3⟩
  · exact ⟨L₂, h₁.suspends h2⟩
  · exact ⟨L₁, h₁.setErrno _⟩

/-- **Every job is counted once**, in a run whose interrupts are all prompt: behind two calls of
    `k_rt_tsk_susp` that a task makes one after the other, with those of other tasks between them,
    there is one execution more. -/
theorem job_counted_once {es₁ es₂ : List Event} {k₂ : Kernel} (h : Orderly k L)
    (he₁ : ∀ e ∈ es₁, e.ofJobs = true) (he₂ : ∀ e ∈ es₂, e.ofJobs = true)
    (hp : Allowed Kernel.step Kernel.Prompt k (es₁ ++ .call .rtTskSusp :: es₂))
    (h₁ : Lib.run Kernel.step k es₁ = some k₁) (hrt : k₁.cur.realTime = true)
    (h₂ : k₁.step (.call .rtTskSusp) = some k₂)
    (hno : Allowed Kernel.step (fun s e => e.suspends = true → s.current ≠ k₁.current) k₂ es₂)
    (h₃ : Lib.run Kernel.step k₂ es₂ = some k') (hnext : k'.current = k₁.current) :
    k'.cur.nthExecution = k₁.cur.nthExecution + 1 := by
  obtain ⟨L₁, hL₁⟩ := h.run he₁ h₁
  have hjob : Job k₁.current k₁.cur.nthExecution k₂ := by
    rcases hL₁.step_cases rfl h₂ with ⟨_, _, _, _, _, e, -⟩ | ⟨-, ⟨-, L₂, h4⟩ | ⟨hc, -⟩⟩
    · cases e
    · exact ⟨L₂, hL₁.suspends h4, (h4.realTime _).trans hrt,
        Or.inl ⟨(h4.suspended _).mpr (Or.inl rfl), h4.nthExecution _⟩⟩
    · rw [hrt] at hc
      cases hc
  -- nothing but these events happens to the job
  have hall := ((allowed_cons.mp (hp.right h₁)).2 k₂ h₂).and
    ((Allowed.of_events (p := fun e => e.ofJobs = true) he₂).and hno)
  obtain ⟨L', hL', -, hlast⟩ := run_reached (Job k₁.current k₁.cur.nthExecution)
    (fun _ _ _ hj ⟨hp, he, ht⟩ hk => hj.step he hp ht hk) hjob hall h₃
  rcases hlast with ⟨hm, -⟩ | ⟨-, hn⟩
  · exact absurd (hnext ▸ hm) (hL'.held none)
  · unfold Kernel.cur
    rw [hnext]
    exact hn

instance Kernel.Prompt.decidable : ∀ (k : Kernel) (e : Event), Decidable (k.Prompt e)
  | _, .timer _ _ => inferInstanceAs (Decidable (∀ t ∈ _, _))
  | _, .call _ => .isTrue trivial
  | _, .resume => .isTrue trivial
  | _, .overwrite _ _ => .isTrue trivial

/-- A real-time task is suspended, and its jobs are alone. -/
theorem job_counted_once_alone : ∃ k k₁ k₂ k',
    reached threeTasks [.call (.rtTskSet ⟨0, 2500⟩), .call .rtTskSusp] = some k ∧
    Lib.run Kernel.step k [.timer 0 300000] = some k₁ ∧
    k₁.step (.call .rtTskSusp) = some k₂ ∧
    Lib.run Kernel.step k₂ [.timer 0 550000] = some k' ∧
    k'.cur.nthExecution = k₁.cur.nthExecution + 1 := by
  obtain ⟨k, hk, hd⟩ := (Option.any_eq_true (fun k : Kernel => decide (Orderly k k.lines ∧
    Allowed Kernel.step Kernel.Prompt k
      [.timer 0 300000, .call .rtTskSusp, .timer 0 550000] ∧
    (Lib.run Kernel.step k [.timer 0 300000]).any fun k₁ : Kernel => decide (
      k₁.cur.realTime = true ∧ (k₁.step (.call .rtTskSusp)).any fun k₂ : Kernel =>
        (Lib.run Kernel.step k₂ [.timer 0 550000]).any fun k' : Kernel =>
          decide (k'.current = k₁.current))))
    (reached threeTasks [.call (.rtTskSet ⟨0, 2500⟩), .call .rtTskSusp])).mp (by decide +kernel)
  obtain ⟨h1, h2, h3⟩ := of_decide_eq_true hd
  obtain ⟨k₁, hk₁, hd₁⟩ := (Option.any_eq_true _ _).mp h3
  obtain ⟨h4, h5⟩ := of_decide_eq_true hd₁
  obtain ⟨k₂, hk₂, hd₂⟩ := (Option.any_eq_true _ _).mp h5
  obtain ⟨k', hk', hd'⟩ := (Option.any_eq_true _ _).mp hd₂
  have hno : Allowed Kernel.step (fun s e => e.suspends = true → s.current ≠ k₁.current) k₂
      [.timer 0 550000] := allowed_cons.mpr ⟨fun e => (by cases e), fun _ _ => trivial⟩
  exact ⟨k, k₁, k₂, k', hk, hk₁, hk₂, hk', job_counted_once h1 (by simp [Event.ofJobs])
    (by simp [Event.ofJobs]) h2 hk₁ h4 hk₂ hno hk' (of_decide_eq_true hd')⟩

/-- Two real-time tasks are released by one interrupt. The second of them runs when the first
    suspends itself; it ends its job late, and has not been counted. -/
theorem job_not_counted : ∃ k k₁ k',
    reached threeTasks
      [.call (.rtTskSet ⟨0, 2500⟩), .call .rtTskSusp, .call (.rtTskSet ⟨0, 2500⟩)] = some k ∧
    Orderly k k.lines ∧ k.cur.realTime = true ∧ k.step (.call .rtTskSusp) = some k₁ ∧
    Allowed Kernel.step (fun s e => e.suspends = true → s.current ≠ k.current) k₁
      [.timer 0 1000000, .call .rtTskSusp] ∧
    Lib.run Kernel.step k₁ [.timer 0 1000000, .call .rtTskSusp] = some k' ∧
    k'.current = k.current ∧ k'.cur.tskDeadline < k'.timerCount ∧
    k'.cur.nthExecution = k.cur.nthExecution := by
  obtain ⟨k, hk, hd⟩ := (Option.any_eq_true (fun k : Kernel => decide (Orderly k k.lines ∧
    k.cur.realTime = true ∧ (k.step (.call .rtTskSusp)).any fun k₁ => decide (
      Allowed Kernel.step (fun s e => e.suspends = true → s.current ≠ k.current) k₁
        [.timer 0 1000000, .call .rtTskSusp] ∧
      (Lib.run Kernel.step k₁ [.timer 0 1000000, .call .rtTskSusp]).any fun k' =>
        k'.current = k.current ∧ k'.cur.tskDeadline < k'.timerCount ∧
          k'.cur.nthExecution = k.cur.nthExecution)))
    (reached threeTasks
      [.call (.rtTskSet ⟨0, 2500⟩), .call .rtTskSusp, .call (.rtTskSet ⟨0, 2500⟩)])).mp
        (by decide +kernel)
  obtain ⟨h1, h2, h3⟩ := of_decide_eq_true hd
  obtain ⟨k₁, hk₁, hd₁⟩ := (Option.any_eq_true _ _).mp h3
  obtain ⟨h4, h5⟩ := of_decide_eq_true hd₁
  obtain ⟨k', hk', hd'⟩ := (Option.any_eq_true _ _).mp h5
  exact ⟨k, k₁, k', hk, h1, h2, hk₁, h4, hk', of_decide_eq_true hd'⟩

end Rtx
