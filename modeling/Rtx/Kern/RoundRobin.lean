/-
  File:      Rtx/Kern/RoundRobin.lean
  Subject:   k_tsk_yield among the tasks of one priority.

  `Rotation k p t l`: `t` runs, and the tasks `l` of the same priority are ready, with nobody above
  them. A yield turns the rotation by one place and writes nothing else, whatever the state of the
  other queues.
-/
import Mathlib.Data.Nat.ModEq
import Rtx.Kern.Lineup

namespace Rtx

open Lib

variable {k k' : Kernel} {p : Fin 5} {t u : Tid} {l : List Tid}

/-- **The tasks of a rotation**: `t` runs, those of `l` are ready behind it, no task of a higher
    priority is ready. -/
structure Rotation (k : Kernel) (p : Fin 5) (t : Tid) (l : List Tid) : Prop where
  current : k.current = t
  running : (k.data t).state = .running
  chain : k.toTasks.Chain (.ready p) l
  apart : t ∉ l
  ready : ∀ u ∈ l, (k.data u).state = .ready
  kind : ∀ u ∈ t :: l, (k.data u).realTime = false ∧ (k.data u).prio = order2priority p.val
  higher : ∀ j, j < p → (k.queue (.ready j)).head = none

instance Rotation.decidable (k : Kernel) (p : Fin 5) (t : Tid) (l : List Tid) :
    Decidable (Rotation k p t l) :=
  decidable_of_iff (k.current = t ∧ (k.data t).state = .running ∧ k.toTasks.Chain (.ready p) l ∧
    l.count t = 0 ∧ (l.all fun u => (k.data u).state = .ready) = true ∧
    ((t :: l).all fun u => (k.data u).realTime = false ∧
      (k.data u).prio = order2priority p.val) = true ∧
    ∀ j, j < p → (k.queue (.ready j)).head = none)
    ⟨fun ⟨h1, h2, h3, h4, h5, h6, h7⟩ => ⟨h1, h2, h3, List.count_eq_zero.mp h4,
      fun u hu => of_decide_eq_true (List.all_eq_true.mp h5 u hu),
      fun u hu => of_decide_eq_true (List.all_eq_true.mp h6 u hu), h7⟩,
      fun h => ⟨h.current, h.running, h.chain, List.count_eq_zero.mpr h.apart,
        List.all_eq_true.mpr fun u hu => decide_eq_true (h.ready u hu),
        List.all_eq_true.mpr fun u hu => decide_eq_true (h.kind u hu), h.higher⟩⟩

/-! ## 1. One yield -/

theorem Kernel.firstReady_eq (hp : (k.queue (.ready p)).head ≠ none)
    (hlow : ∀ j, j < p → (k.queue (.ready j)).head = none) :
    k.firstReady [0, 1, 2, 3, 4] = some p := by
  have hall : ∀ i : Fin 5, i ∈ ([0, 1, 2, 3, 4] : List (Fin 5)) := by decide
  cases hf : k.firstReady [0, 1, 2, 3, 4] with
  | none => exact absurd (Kernel.firstReady_none hf p (hall p)) hp
  | some i =>
      obtain ⟨h1, h2⟩ := Kernel.firstReady_some (by decide) hf
      rcases lt_trichotomy i p with h | rfl | h
      · exact absurd (hlow i h) h1
      · rfl
      · exact absurd (h2 p (hall p) h) hp

/-- The first half of a yield: the running task goes to the end of its queue. -/
theorem Rotation.push (h : Rotation k p t l) :
    ∃ s, k.kTskYield = .ok ((Kernel.kTskRunNew { k with toTasks := s }).1, rtxOk) ∧
      s.Chain (.ready p) (l ++ [t]) ∧
      s.data = Function.update k.data t { k.data t with state := .ready } ∧
      k.toTasks.Within s (.ready p) (· ∈ t :: l) := by
  obtain ⟨hrt, hprio⟩ := h.kind t List.mem_cons_self
  obtain ⟨s, z, h1, h2, h3, -, h4⟩ := h.chain.pushTail card_tid h.apart fun e => by
    rw [show (k.data t).realTime = false from hrt] at e
    cases e
  have hq : k.toTasks.queued t l = l ++ [t] := if_neg fun e => by
    rw [show (k.data t).realTime = false from hrt] at e
    cases e
  rw [hq] at h2 h3
  obtain rfl : t = z := by simpa using h2
  have hdata : s.data = Function.update k.data t { k.data t with state := .ready } := by
    rw [h4, Tasks.marked, if_pos]
    rw [show (k.data t).state = .running from h.running]
    simp
  refine ⟨s, ?_, h3, hdata, (Tasks.Within.refl _ _ _).pushTail h.chain (fun u hu => hu) hrt h1⟩
  have hcs : k.cur.state = .running := by
    unfold Kernel.cur
    rw [h.current]
    exact h.running
  have hcr : k.cur.realTime = false := by
    unfold Kernel.cur
    rw [h.current]
    exact hrt
  have hcp : k.cur.prio = order2priority p.val := by
    unfold Kernel.cur
    rw [h.current]
    exact hprio
  have hread : readyAt (priority2order k.cur.prio) = .ok (.ready p) := readyAt_priority.mpr hcp
  have horder : priority2order k.cur.prio ≠ -1 := fun e => by
    rw [e] at hread
    cases hread
  have hnull : k.cur.prio ≠ prioNull := fun e => (order2priority_lt_null p).ne (hcp.symm.trans e)
  unfold Kernel.kTskYield
  rw [if_neg (not_not.mpr hcs), if_neg (by rw [hcr]; simp), if_neg horder, if_pos hnull]
  have hpush : k.pushTail k.current (.ready p) = .ok { k with toTasks := s } :=
    (congrArg (fun u => k.pushTail u (.ready p)) h.current).trans (bind_of_ok h1)
  exact (bind_of_ok hread).trans (bind_of_ok hpush)

/-- **The next turn**: `t'` has been taken from the queue and runs, those of `l'` are ready behind
    it. The current task may still be the one that yielded. -/
structure Turn (k x : Kernel) (p : Fin 5) (t : Tid) (l : List Tid) (t' : Tid) (l' : List Tid) :
    Prop where
  turned : l ++ [t] = t' :: l'
  chain : x.toTasks.Chain (.ready p) l'
  restated : Restated k x
  within : k.toTasks.Within x.toTasks (.ready p) (· ∈ t :: l)
  running : (x.data t').state = .running
  ready : ∀ u ∈ l', (x.data u).state = .ready

section

variable {x : Kernel} {t' : Tid} {l' : List Tid}

theorem Turn.mem_iff (ht : Turn k x p t l t' l') : u ∈ t' :: l' ↔ u ∈ t :: l := by
  rw [← ht.turned, List.mem_append, List.mem_singleton, List.mem_cons, or_comm]

theorem Turn.setCurrent (ht : Turn k x p t l t' l') (w : Tid) :
    Turn k (x.setCurrent w) p t l t' l' :=
  ⟨ht.turned, ht.chain, ht.restated, ht.within, ht.running, ht.ready⟩

/-- A state that is written again over itself. -/
theorem Turn.setTaskState (ht : Turn k x p t l t' l') {v : TaskState} (hu : u ∈ t :: l)
    (hv : (x.data u).state = v) : Turn k (x.setTaskState u v) p t l t' l' := by
  have hstate : ∀ w, ((x.setTaskState u v).data w).state = (x.data w).state := fun w => by
    rw [Kernel.data_setTaskState, Function.update_apply]
    split
    next e => rw [e, hv]
    · rfl
  exact ⟨ht.turned, ht.chain.modify u fun d => { d with state := v },
    ht.restated.trans (restated_setTaskState x u v),
    ht.within.modify hu fun d => { d with state := v }, (hstate t').trans ht.running,
    fun w hw => (hstate w).trans (ht.ready w hw)⟩

/-- When the task whose turn it is has become the current one, the rotation stands again. -/
theorem Turn.rotation (ht : Turn k x p t l t' l') (h : Rotation k p t l) (hc : x.current = t') :
    Rotation x p t' l' := by
  have hnd : (t' :: l').Nodup := by
    rw [← ht.turned]
    exact List.nodup_append_comm.mp (List.nodup_cons.mpr ⟨h.apart, h.chain.nodup⟩)
  refine ⟨hc, ht.running, ht.chain, (List.nodup_cons.mp hnd).1, ht.ready, fun u hu => ?_,
    fun j hj => ?_⟩
  · rw [ht.restated.realTime, ht.restated.field TcbData.prio fun _ => rfl]
    exact h.kind u (ht.mem_iff.mp hu)
  · rw [ht.within.queue _ (by simp [hj.ne])]
    exact h.higher j hj

end

/-- The scheduler takes the first task of the queue when nobody of a higher priority is ready. -/
theorem Kernel.scheduler_eq (hp : (k.queue (.ready p)).head = some t)
    (hlow : ∀ j, j < p → (k.queue (.ready j)).head = none) :
    k.scheduler = ({ k with toTasks := (k.toTasks.popHead (.ready p)).1 }, t) := by
  unfold Kernel.scheduler
  rw [Kernel.firstReady_eq (by rw [hp]; simp) hlow]
  simp only [hp]
  rfl

/-- The second half of a yield: the scheduler takes the task whose turn it is. -/
theorem Rotation.turn (h : Rotation k p t l) :
    ∃ s x t' l', k.kTskYield = .ok ((Kernel.kTskRunNew { k with toTasks := s }).1, rtxOk) ∧
      (Kernel.cur { k with toTasks := s }).realTime = false ∧
      Kernel.scheduler { k with toTasks := s } = (x, t') ∧ Turn k x p t l t' l' := by
  obtain ⟨s, h1, h2, h3, h4⟩ := h.push
  obtain ⟨t', l', hl⟩ : ∃ t' l', l ++ [t] = t' :: l' :=
    List.exists_cons_of_ne_nil (List.concat_ne_nil t l)
  rw [hl] at h2
  obtain ⟨-, h6, h7⟩ := h2.popHead card_tid
  have hmem : ∀ u, u ∈ t' :: l' ↔ u ∈ t :: l := fun u => by
    rw [← hl, List.mem_append, List.mem_singleton, List.mem_cons, or_comm]
  have hready : ∀ u ∈ t' :: l', (s.data u).state = .ready := fun u hu => by
    rw [h3, Function.update_apply]
    split
    · rfl
    next e => exact h.ready u ((List.mem_cons.mp ((hmem u).mp hu)).resolve_left e)
  refine ⟨s, _, t', l', h1, ?_, Kernel.scheduler_eq h2.head fun j hj => ?_, hl, h6, ?_,
    h4.popHead h2 fun u hu => (hmem u).mp hu, ?_, fun u hu => ?_⟩
  · change (s.data k.current).realTime = false
    rw [h.current, h3, Function.update_self]
    exact (h.kind t List.mem_cons_self).1
  · exact (congrArg Queue.head (h4.queue _ (by simp [hj.ne]))).trans (h.higher j hj)
  · have hs : Restated k { k with toTasks := s } := Tasks.Marks.stateless ⟨_, h3⟩
    have hs' : Restated { k with toTasks := s } { k with toTasks := (s.popHead (.ready p)).1 } :=
      Tasks.Marks.stateless ⟨_, h7⟩
    exact hs.trans hs'
  · change ((s.popHead (.ready p)).1.data t').state = .running
    rw [h7, Function.update_self, hready t' List.mem_cons_self]
    simp
  · change ((s.popHead (.ready p)).1.data u).state = .ready
    have hne : u ≠ t' := fun e => (List.nodup_cons.mp h2.nodup).1 (e ▸ hu)
    rw [h7, Function.update_of_ne hne]
    exact hready u (List.mem_cons_of_mem t' hu)

/-- **A yield** turns the rotation by one place. -/
theorem Rotation.yield (h : Rotation k p t l) :
    ∃ k' t' l', k.kTskYield = .ok (k', rtxOk) ∧ l ++ [t] = t' :: l' ∧ Rotation k' p t' l' ∧
      k.toTasks.Within k'.toTasks (.ready p) (· ∈ t :: l) := by
  obtain ⟨s, x, t', l', h1, hcr, hsch, ht⟩ := h.turn
  unfold Kernel.kTskRunNew at h1
  rw [if_neg (by rw [hcr]; simp), hsch] at h1
  dsimp only at h1
  have ht₁ := ht.setCurrent t'
  by_cases e : t' = k.current
  · -- nobody else: the task goes on
    rw [if_neg (not_not.mpr e)] at h1
    exact ⟨_, t', l', h1, ht.turned, ht₁.rotation h rfl, ht₁.within⟩
  · rw [if_pos e] at h1
    have hcl : k.current ∈ t :: l := by
      rw [h.current]
      exact List.mem_cons_self
    have ht₂ := ht₁.setTaskState (ht.mem_iff.mp List.mem_cons_self) ht.running
    -- the task that yields is ready already
    have hold : (((x.setCurrent t').setTaskState t' .running).tcb k.current).state = .ready :=
      ht₂.ready _ ((List.mem_cons.mp (ht.mem_iff.mpr hcl)).resolve_left fun e' => e e'.symm)
    have ht₃ := ht₂.setTaskState hcl hold
    rw [if_pos (by rw [hold]; simp)] at h1
    exact ⟨_, t', l', h1, ht.turned, ht₃.rotation h rfl, ht₃.within⟩

/-! ## 2. Any number of yields -/

/-- `n` calls of `k_tsk_yield`, each made by the task that then runs. -/
def yields (n : Nat) : List Event := List.replicate n (.call .tskYield)

/-- **The rotation after `n` yields**, by induction on their number. -/
theorem Rotation.run (h : Rotation k p t l) (n : Nat) :
    ∃ k' t' l', Lib.run Kernel.step k (yields n) = some k' ∧ (t :: l).rotate n = t' :: l' ∧
      Rotation k' p t' l' ∧ k.toTasks.Within k'.toTasks (.ready p) (· ∈ t :: l) := by
  induction n generalizing k t l with
  | zero => exact ⟨k, t, l, rfl, List.rotate_zero _, h, Tasks.Within.refl _ _ _⟩
  | succ n ih =>
      obtain ⟨k₁, t₁, l₁, h1, h2, h3, h4⟩ := h.yield
      obtain ⟨k', t', l', h5, h6, h7, h8⟩ := ih h3
      have hstep : k.step (.call .tskYield) = some k₁ :=
        Kernel.step_eq_some.mpr ⟨_, bind_of_ok h1⟩
      have hmem : ∀ u, u ∈ t₁ :: l₁ → u ∈ t :: l := fun u hu => by
        rw [← h2, List.mem_append, List.mem_singleton] at hu
        exact List.mem_cons.mpr hu.symm
      refine ⟨k', t', l', ?_, ?_, h7, h4.trans ⟨fun u hu => h8.tcb u (mt (hmem u) hu), h8.queue⟩⟩
      · unfold yields at h5 ⊢
        rw [List.replicate_succ, run_cons, hstep]
        exact h5
      · rw [List.rotate_cons_succ, h2]
        exact h6

/-- In a list without repetitions every member comes once in each cycle. -/
theorem exists_unique_turn {α : Type} {l : List α} (hl : l.Nodup) {a : α} (ha : a ∈ l) (m : Nat) :
    ∃! j, j < l.length ∧ l[(m + j) % l.length]? = some a := by
  obtain ⟨i, hia⟩ := List.getElem?_of_mem ha
  have hi : i < l.length := (List.getElem?_eq_some_iff.mp hia).1
  have hpos : 0 < l.length := Nat.lt_of_le_of_lt (Nat.zero_le i) hi
  have hm := Nat.mod_lt m hpos
  have hmod : ∀ j, l[(m + j) % l.length]? = some a ↔ (m + j) % l.length = i := fun j => by
    rw [← hia]
    exact List.getElem?_inj (Nat.mod_lt _ hpos) hl
  have hturn : (m + (i + (l.length - m % l.length)) % l.length) % l.length = i := by
    rw [Nat.add_mod_mod, ← Nat.mod_add_mod,
      show m % l.length + (i + (l.length - m % l.length)) = i + l.length by omega,
      Nat.add_mod_right, Nat.mod_eq_of_lt hi]
  refine ⟨_, ⟨Nat.mod_lt _ hpos, (hmod _).mpr hturn⟩, fun j ⟨hj, h⟩ => ?_⟩
  have hcancel : j ≡ (i + (l.length - m % l.length)) % l.length [MOD l.length] :=
    Nat.ModEq.add_left_cancel' m (((hmod j).mp h).trans hturn.symm)
  exact hcancel.eq_of_lt_of_lt hj (Nat.mod_lt _ hpos)

/-- **Yielding is round-robin**, whatever the state of the other queues: after `n` yields the task
    at place `n` of the rotation runs, the others are ready behind it in their cyclic order, and
    nothing else has been written. In any `n + 1` successive yields each of the `n + 1` tasks runs
    once. -/
theorem yield_round_robin (h : Rotation k p t l) :
    (∀ n, ∃ k', Lib.run Kernel.step k (yields n) = some k' ∧
      (t :: l)[n % (l.length + 1)]? = some k'.current ∧ (k'.data k'.current).state = .running ∧
      k'.toTasks.Chain (.ready p) ((t :: l).rotate n).tail ∧
      (∀ u ∈ ((t :: l).rotate n).tail, (k'.data u).state = .ready) ∧
      (∀ q, q ≠ .ready p → k'.queue q = k.queue q) ∧ ∀ u, u ∉ t :: l → k'.tcb u = k.tcb u) ∧
    ∀ m, ∀ u ∈ t :: l, ∃! j, j < l.length + 1 ∧
      (Lib.run Kernel.step k (yields (m + j))).map Kernel.current = some u := by
  have hrun : ∀ n, ∃ k', Lib.run Kernel.step k (yields n) = some k' ∧
      (t :: l)[n % (l.length + 1)]? = some k'.current ∧ Rotation k' p k'.current
        ((t :: l).rotate n).tail ∧ k.toTasks.Within k'.toTasks (.ready p) (· ∈ t :: l) := by
    intro n
    obtain ⟨k', t', l', h1, h2, h3, h4⟩ := h.run n
    obtain rfl := h3.current
    refine ⟨k', h1, ?_, by rw [h2]; exact h3, h4⟩
    have hlen : (t :: l).length = l.length + 1 := rfl
    have hlt : n % (t :: l).length < (t :: l).length := Nat.mod_lt n (Nat.succ_pos l.length)
    rw [← hlen, ← List.head?_rotate hlt, List.rotate_mod, h2]
    rfl
  refine ⟨fun n => ?_, fun m u hu => ?_⟩
  · obtain ⟨k', h1, h2, h3, h4⟩ := hrun n
    exact ⟨k', h1, h2, h3.running, h3.chain, h3.ready, h4.queue, h4.tcb⟩
  · have hnd : (t :: l).Nodup := List.nodup_cons.mpr ⟨h.apart, h.chain.nodup⟩
    have hmap : ∀ n, (Lib.run Kernel.step k (yields n)).map Kernel.current =
        (t :: l)[n % (l.length + 1)]? := fun n => by
      obtain ⟨k', h1, h2, -⟩ := hrun n
      rw [h1, h2]
      rfl
    simp only [hmap]
    exact exists_unique_turn hnd hu m

/-- The system tasks after the boot. -/
theorem yield_round_robin_booted : ∃ k', Rotation (bootKernel threeTasks) 1 14 [15, 13] ∧
    Lib.run Kernel.step (bootKernel threeTasks) (yields 4) = some k' ∧ k'.current = 15 := by
  have h : Rotation (bootKernel threeTasks) 1 14 [15, 13] := by decide +kernel
  obtain ⟨k', h1, h2, -⟩ := (yield_round_robin h).1 4
  have h3 : ([14, 15, 13] : List Tid)[4 % 3]? = some 15 := rfl
  exact ⟨k', h, h1, Option.some.inj (h2.symm.trans h3)⟩

end Rtx
