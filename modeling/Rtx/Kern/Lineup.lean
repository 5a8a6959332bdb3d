/-
  File:      Rtx/Kern/Lineup.lean
  Subject:   The running task, the ready queues and suspend_tsk, in any state in which these queues
             are lists.

  * `Listed k L X`: the ready queues and `suspend_tsk` hold the lists `L`; the waiting lists of the
    mailboxes may be anything.
  * `Lined k L`: besides, every listed task is in the queue of its priority, and the running task is
    in none. `Sorted k L`: the queue of the real-time tasks is sorted by deadlines.
  * `Seated k R`: the running task has a place to go back to when one of the real-time tasks `R`
    makes it give way. `Lineup k L`: a lined state whose running task has a rank, so it has one.

  The scheduler, the loop over the suspended tasks and the choice of the timer interrupt keep the
  lists and every task's place, and change of a TCB at most the state.
-/
import Mathlib.Data.Fintype.Option
import Rtx.Kern.Steady
import Rtx.Kern.View

namespace Rtx

open Lib

/-! ## 1. States that differ in the states of the tasks -/

/-- A TCB but for its state. -/
def TcbData.stateless (d : TcbData) : TcbData := { d with state := .dormant }

namespace Tasks

variable {τ κ : Type} [DecidableEq τ] {s s' : Tasks τ κ} {t u z : τ}

/-- At most the state of `z` has changed. -/
def Marks (s s' : Tasks τ κ) (z : τ) : Prop :=
  ∃ v, s'.data = Function.update s.data z { s.data z with state := v }

theorem Marks.of_ne (h : s.Marks s' z) (hu : u ≠ z) : s'.data u = s.data u := by
  obtain ⟨v, hv⟩ := h
  rw [hv, Function.update_of_ne hu]

theorem Marks.stateless (h : s.Marks s' z) (u : τ) :
    (s'.data u).stateless = (s.data u).stateless := by
  obtain ⟨v, hv⟩ := h
  rw [hv, Function.update_apply]
  split
  next e =>
    subst e
    rfl
  · rfl

/-- The TCBs along `next`, from `v` on. -/
def walk (s : Tasks τ κ) : Nat → Option τ → List τ
  | 0, _ => []
  | n + 1, v => v.elim [] fun t => t :: walk s n (s.tcb t).next

omit [DecidableEq τ] in
/-- A linked list is found by walking it. -/
theorem walk_eq {l : List τ} {n : Nat}
    (h : Linked (fun t => (s.tcb t).next) (fun t => (s.tcb t).prev) l) (hn : l.length ≤ n) :
    s.walk n l.head? = l := by
  induction n generalizing l with
  | zero => rw [List.length_eq_zero_iff.mp (Nat.le_zero.mp hn)]; rfl
  | succ n ih =>
      cases l with
      | nil => rfl
      | cons t l =>
          have hnext : (s.tcb t).next = l.head? := h.next_head
          rw [List.head?_cons, walk, Option.elim_some, hnext, ih h.tail (Nat.le_of_succ_le_succ hn)]

theorem marks_of_eq (h : s'.data = s.data) (z : τ) : s.Marks s' z :=
  ⟨(s.data z).state, by rw [h]; exact (Function.update_eq_self z s.data).symm⟩

end Tasks

variable {k k' k₁ : Kernel} {t u z : Tid}

/-- No TCB differs but in its state. -/
def Restated (k k' : Kernel) : Prop := ∀ t, (k'.data t).stateless = (k.data t).stateless

theorem Restated.refl (k : Kernel) : Restated k k := fun _ => rfl

theorem Restated.trans (h : Restated k k₁) (h' : Restated k₁ k') : Restated k k' := fun t =>
  (h' t).trans (h t)

theorem restated_setTaskState (k : Kernel) (t : Tid) (v : TaskState) :
    Restated k (k.setTaskState t v) :=
  Tasks.Marks.stateless ⟨v, k.data_setTaskState t v⟩

theorem restated_switchTo (k : Kernel) (t : Tid) : Restated k (k.switchTo t) :=
  restated_setTaskState (k.setCurrent t) t .running

/-- A field other than the state. -/
theorem Restated.field (h : Restated k k') {α : Type} (f : TcbData → α)
    (hf : ∀ d : TcbData, f d.stateless = f d) (t : Tid) : f (k'.data t) = f (k.data t) := by
  rw [← hf, h t, hf]

theorem Restated.realTime (h : Restated k k') (t : Tid) :
    (k'.data t).realTime = (k.data t).realTime := h.field TcbData.realTime (fun _ => rfl) t

theorem Restated.tskDeadline (h : Restated k k') (t : Tid) :
    (k'.data t).tskDeadline = (k.data t).tskDeadline := h.field TcbData.tskDeadline (fun _ => rfl) t

theorem Restated.tskPeriod (h : Restated k k') (t : Tid) :
    (k'.data t).tskPeriod = (k.data t).tskPeriod := h.field TcbData.tskPeriod (fun _ => rfl) t

/-- The null task keeps its priority and its kind. -/
theorem Restated.null (h : Restated k k')
    (h0 : (k.data tidNull).prio = prioNull ∧ (k.data tidNull).realTime = false) :
    (k'.data tidNull).prio = prioNull ∧ (k'.data tidNull).realTime = false :=
  ⟨(h.field TcbData.prio (fun _ => rfl) tidNull).trans h0.1, (h.realTime tidNull).trans h0.2⟩

/-! ## 2. The queues -/

/-- The ready queues, and `suspend_tsk`. -/
def activeQueue (q : Option (Fin 5)) : QId := q.elim .suspend .ready

theorem activeQueue_injective : activeQueue.Injective := by
  intro q q' h
  cases q <;> cases q' <;> simp_all [activeQueue]

/-- A list for each of these queues. -/
abbrev Lines := Option (Fin 5) → List Tid

/-- **The ready queues and `suspend_tsk` hold the lists `L`.** -/
def Listed (k : Kernel) (L : Lines) (X : Tid → Prop) : Prop :=
  (k.toTasks.view activeQueue).Rep L X

instance Listed.decidable (k : Kernel) (L : Lines) (X : Tid → Prop) [DecidablePred X] :
    Decidable (Listed k L X) := Tasks.Rep.decidable _ L X

variable {L L' : Lines} {X X' : Tid → Prop} {q : Option (Fin 5)} {l l₁ l₂ : List Tid}

/-- What stands in these queues. -/
def Kernel.lines (k : Kernel) : Lines := fun q => k.walk 16 (k.queue (activeQueue q)).head

namespace Listed

variable (h : Listed k L X)
include h

/-- There is no choice of the lists. -/
theorem lines_eq : k.lines = L := funext fun q => by
  have hlen := (h.chain q).nodup.length_le_card
  rw [Fintype.card_fin] at hlen
  have hh : (k.queue (activeQueue q)).head = (L q).head? := (h.chain q).head
  unfold Kernel.lines
  rw [hh]
  exact Tasks.walk_eq (h.chain q).linked hlen

theorem head (q : Option (Fin 5)) : (k.queue (activeQueue q)).head = (L q).head? := (h.chain q).head

theorem mono (hX : ∀ t, X t → X' t) : Listed k L X' := Tasks.Rep.mono h hX

/-- A task in no queue that has no successor. -/
theorem next (ht : ∀ q, t ∉ L q) (hX : ¬ X t) : (k.tcb t).next = none := h.off t ht hX

/-- Only of `t` it is known that it has no successor when it is in no queue. -/
theorem only (hn : (k.tcb t).next = none) : Listed k L (· ≠ t) :=
  ⟨h.chain, h.disj, fun _ _ hu => (not_not.mp hu) ▸ hn⟩

theorem setErrno (x : Errno) : Listed (k.setErrno x) L X where
  chain q := ⟨(h.chain q).head, (h.chain q).tail, (h.chain q).size, (h.chain q).linked,
    (h.chain q).nodup⟩
  disj := h.disj
  off := h.off

theorem modifyTcb (t : Tid) (f : TcbData → TcbData) : Listed (k.modifyTcb t f) L X :=
  h.modify t f

theorem setTaskState (t : Tid) (v : TaskState) : Listed (k.setTaskState t v) L X := h.modifyTcb t _

theorem popHead (hL : L q = t :: l) :
    Listed (k.popHead (activeQueue q)) (Function.update L q l) X ∧
      k.toTasks.Marks (k.popHead (activeQueue q)).toTasks t ∧
      ((k.popHead (activeQueue q)).tcb t).next = none := by
  obtain ⟨-, h1, h2, -, h3⟩ := Tasks.Rep.popHead card_tid h hL
  rw [Tasks.view_popHead activeQueue_injective] at h1 h2 h3
  exact ⟨h1, ⟨_, h2⟩, h3⟩

theorem popTask (hL : L q = l₁ ++ t :: l₂) :
    ∃ s, k.popTask t (activeQueue q) = .ok { k with toTasks := s } ∧
      Listed { k with toTasks := s } (Function.update L q (l₁ ++ l₂)) (fun u => X u ∨ u = t) ∧
      k.toTasks.Marks s t := by
  obtain ⟨v, h1, h2, -, -, h3⟩ := Tasks.Rep.popTask card_tid h hL
  rw [Tasks.view_popTask activeQueue_injective] at h1
  obtain ⟨x, hx, hv⟩ := map_eq_ok.mp h1
  obtain rfl : x.1.view activeQueue = v := congrArg Prod.fst hv
  refine ⟨x.1, bind_of_ok hx, h2, ?_⟩
  by_cases e : l₁ = []
  · rw [if_pos e] at h3
    exact ⟨_, h3⟩
  · rw [if_neg e] at h3
    exact Tasks.marks_of_eq h3 t

theorem pushHead (ht : ∀ q, t ∉ L q) (hn : (k.tcb t).next = none) (q : Option (Fin 5)) :
    Listed (k.pushHead t (activeQueue q)) (Function.update L q (t :: L q)) X ∧
      k.toTasks.Marks (k.pushHead t (activeQueue q)).toTasks t := by
  obtain ⟨h1, h2, -⟩ := Tasks.Rep.pushHead (q := q) card_tid h ht fun _ => hn
  rw [Tasks.view_pushHead activeQueue_injective] at h1 h2
  exact ⟨h1, ⟨_, h2⟩⟩

/-- What the loop over the ready queues finds. -/
theorem firstReady :
    (k.firstReady [0, 1, 2, 3, 4] = none ∧ ∀ i, L (some i) = []) ∨
      ∃ i t l, k.firstReady [0, 1, 2, 3, 4] = some i ∧ L (some i) = t :: l ∧
        (k.queue (.ready i)).head = some t ∧ ∀ j, j < i → L (some j) = [] := by
  have hall : ∀ i : Fin 5, i ∈ ([0, 1, 2, 3, 4] : List (Fin 5)) := by decide
  have hempty : ∀ i, (k.queue (.ready i)).head = none → L (some i) = [] := fun i hi =>
    List.head?_eq_none_iff.mp ((h.head (some i)).symm.trans hi)
  cases hf : k.firstReady [0, 1, 2, 3, 4] with
  | none => exact Or.inl ⟨rfl, fun i => hempty i (Kernel.firstReady_none hf i (hall i))⟩
  | some i =>
      obtain ⟨h1, h2⟩ := Kernel.firstReady_some (by decide) hf
      have h3 : (k.queue (.ready i)).head = (L (some i)).head? := h.head (some i)
      cases hL : L (some i) with
      | nil =>
          rw [hL] at h3
          exact absurd h3 h1
      | cons t l =>
          rw [hL] at h3
          exact Or.inr ⟨i, t, l, rfl, hL, h3, fun j hj => hempty j (h2 j (hall j) hj)⟩

/-- **The scheduler** finds nobody, or takes the first task of the first queue that is not
    empty. -/
theorem scheduler :
    (k.scheduler = (k, tidNull) ∧ ∀ i, L (some i) = []) ∨
      ∃ (i : Fin 5) (t : Tid) (l : List Tid) (s : Tasks Tid QId), L (some i) = t :: l ∧
        (∀ j, j < i → L (some j) = []) ∧ k.scheduler = ({ k with toTasks := s }, t) ∧
        Listed { k with toTasks := s } (Function.update L (some i) l) X ∧
        k.toTasks.Marks s t ∧ (s.tcb t).next = none := by
  unfold Kernel.scheduler
  rcases h.firstReady with ⟨hf, hL⟩ | ⟨i, t, l, hf, hL, hh, hj⟩
  · rw [hf]
    exact Or.inl ⟨rfl, hL⟩
  · obtain ⟨h1, h2, h3⟩ := h.popHead hL
    simp only [hf, hh]
    exact Or.inr ⟨i, t, l, _, hL, hj, rfl, h1, h2, h3⟩

omit h in
theorem pushTail (h : Listed k L fun u => X u ∨ u = t) (ht : ∀ q, t ∉ L q)
    (hrt : (k.data t).realTime = true → (k.data t).prio = prioRt) (q : Option (Fin 5)) :
    ∃ s z, k.pushTail t (activeQueue q) = .ok { k with toTasks := s } ∧ (z = t ∨ z ∈ L q) ∧
      Listed { k with toTasks := s } (Function.update L q (k.toTasks.queued t (L q))) X ∧
      k.toTasks.Marks s z := by
  obtain ⟨v, z, h1, h2, h3, -, h4⟩ := Tasks.Rep.pushTail (q := q) card_tid h ht hrt
  rw [Tasks.view_pushTail activeQueue_injective] at h1
  obtain ⟨s, hs, rfl⟩ := map_eq_ok.mp h1
  refine ⟨s, z, bind_of_ok hs, Tasks.mem_queued.mp (List.mem_of_getLast? h2), h3, ?_⟩
  have h5 : s.data = k.toTasks.marked t z := h4
  unfold Tasks.marked at h5
  split at h5
  · exact ⟨_, h5⟩
  · exact Tasks.marks_of_eq h5 z

end Listed

/-! ## 3. The lineup -/

/-- A task of the rank of the ready queue `i`: its priority, and whether it is a real-time task. -/
structure TcbData.Ranked (d : TcbData) (i : Fin 5) : Prop where
  prio : d.prio = order2priority i.val
  realTime : d.realTime = true ↔ i = 0

instance TcbData.Ranked.decidable (d : TcbData) (i : Fin 5) : Decidable (d.Ranked i) :=
  decidable_of_iff (d.prio = order2priority i.val ∧ (d.realTime = true ↔ i = 0))
    ⟨fun ⟨h1, h2⟩ => ⟨h1, h2⟩, fun h => ⟨h.prio, h.realTime⟩⟩

theorem Restated.ranked (h : Restated k k') {i : Fin 5} :
    (k'.data t).Ranked i ↔ (k.data t).Ranked i := by
  have hp := h.field TcbData.prio (fun _ => rfl) t
  refine ⟨fun ⟨h1, h2⟩ => ⟨hp ▸ h1, ?_⟩, fun ⟨h1, h2⟩ => ⟨hp ▸ h1, ?_⟩⟩
  · rw [← h.realTime t]
    exact h2
  · rw [h.realTime t]
    exact h2

/-- The queue of its priority. -/
theorem TcbData.Ranked.readyAt {d : TcbData} {i : Fin 5} (h : d.Ranked i) :
    Rtx.readyAt (priority2order d.prio) = .ok (activeQueue (some i)) := readyAt_priority.mpr h.prio

theorem TcbData.Ranked.isRealTime {d : TcbData} (h : d.Ranked 0) :
    d.realTime = true ∧ d.prio = prioRt := ⟨h.realTime.mpr rfl, h.prio⟩

/-- The tasks that may have a stale successor when they are in no queue: all but the running one,
    and the null task, which no queue takes. -/
def Kernel.Loose (k : Kernel) (t : Tid) : Prop := t ≠ k.current ∨ t = tidNull

instance Kernel.Loose.decidable (k : Kernel) : DecidablePred k.Loose := fun _ =>
  inferInstanceAs (Decidable (_ ∨ _))

/-- **Every listed task is in line.** A suspended task is one of the first rank; nothing is said of
    the rank of the task that runs. -/
structure Lined (k : Kernel) (L : Lines) : Prop where
  listed : Listed k L k.Loose
  held : ∀ q, k.current ∉ L q
  member : ∀ q, ∀ t ∈ L q, (k.data t).Ranked (q.getD 0)
  running : (k.data k.current).state = .running
  null : (k.data tidNull).prio = prioNull ∧ (k.data tidNull).realTime = false

/-- **Every task is in line**: the running task has a rank too, unless it is the null task. -/
structure Lineup (k : Kernel) (L : Lines) : Prop extends Lined k L where
  current : k.current ≠ tidNull → ∃ i, (k.data k.current).Ranked i

/-- The queue of the real-time tasks is sorted by deadlines. -/
def Sorted (k : Kernel) (L : Lines) : Prop :=
  (L (some 0)).Pairwise fun t u => (k.data t).tskDeadline ≤ (k.data u).tskDeadline

instance Sorted.decidable (k : Kernel) (L : Lines) : Decidable (Sorted k L) :=
  inferInstanceAs (Decidable (List.Pairwise _ _))

theorem sorted_congr (hd : ∀ t, (k'.data t).tskDeadline = (k.data t).tskDeadline) :
    Sorted k' L ↔ Sorted k L := by
  unfold Sorted
  simp only [hd]

/-- `push_tail` puts a real-time task where its deadline belongs. -/
theorem Sorted.queued (hs : Sorted k L) (hrt : (k.data t).realTime = true) :
    Sorted k (Function.update L (some 0) (k.toTasks.queued t (L (some 0)))) := by
  have htotal : Std.Total fun a b : Tid => (k.data a).tskDeadline ≤ (k.data b).tskDeadline :=
    ⟨fun a b => le_total _ _⟩
  have htrans : IsTrans Tid fun a b => (k.data a).tskDeadline ≤ (k.data b).tskDeadline :=
    ⟨fun _ _ _ => le_trans⟩
  unfold Sorted
  rw [Function.update_self, Tasks.queued, if_pos hrt]
  exact List.Pairwise.orderedInsert t _ hs

/-- A change of another list. -/
theorem Sorted.update (hs : Sorted k L) (hq : some 0 ≠ q) : Sorted k (Function.update L q l) := by
  unfold Sorted
  rw [Function.update_of_ne hq]
  exact hs

/-- What the scheduler leaves when it takes `t`. -/
theorem Listed.taken (h : Listed k L X) {i : Fin 5} (hL : L (some i) = t :: l) :
    (∀ q u, u ∈ Function.update L (some i) l q → u ∈ L q) ∧
      (∀ q, t ∉ Function.update L (some i) l q) ∧
      (Sorted k L → Sorted k (Function.update L (some i) l)) := by
  have hmem : ∀ q u, u ∈ Function.update L (some i) l q → u ∈ L q := by
    intro q u hu
    by_cases e : q = some i
    · subst e
      rw [Function.update_self] at hu
      rw [hL]
      exact List.mem_cons_of_mem t hu
    · rwa [Function.update_of_ne e] at hu
  refine ⟨hmem, fun q hq => ?_, fun hs => ?_⟩
  · have hq' : q = some i := h.disj q (some i) t (hmem q t hq) (hL ▸ List.mem_cons_self)
    subst hq'
    have hnd := (h.chain (some i)).nodup
    rw [hL] at hnd
    rw [Function.update_self] at hq
    exact hnd.notMem hq
  · by_cases e : some 0 = some i
    · unfold Sorted at hs ⊢
      rw [← e, Function.update_self]
      rw [e, hL] at hs
      exact (List.pairwise_cons.mp hs).2
    · exact hs.update e

theorem not_ranked_null {d : TcbData} (h : d.prio = prioNull) (i : Fin 5) : ¬ d.Ranked i :=
  fun hr => (order2priority_lt_null i).ne (hr.prio.symm.trans h)

instance Lined.decidable (k : Kernel) (L : Lines) : Decidable (Lined k L) :=
  decidable_of_iff (Listed k L k.Loose ∧ (∀ q, k.current ∉ L q) ∧
    (∀ q, ∀ t ∈ L q, (k.data t).Ranked (q.getD 0)) ∧
    (k.data k.current).state = .running ∧
    (k.data tidNull).prio = prioNull ∧ (k.data tidNull).realTime = false)
    ⟨fun ⟨h1, h2, h3, h4, h5⟩ => ⟨h1, h2, h3, h4, h5⟩,
      fun h => ⟨h.listed, h.held, h.member, h.running, h.null⟩⟩

instance Lineup.decidable (k : Kernel) (L : Lines) : Decidable (Lineup k L) :=
  decidable_of_iff (Lined k L ∧ (k.current ≠ tidNull → ∃ i, (k.data k.current).Ranked i))
    ⟨fun ⟨h1, h2⟩ => ⟨h1, h2⟩, fun h => ⟨h.toLined, h.current⟩⟩

namespace Lined

section

variable (h : Lined k L)
include h

theorem ne_null (ht : t ∈ L q) : t ≠ tidNull := fun e =>
  not_ranked_null h.null.1 _ (e ▸ h.member q t ht)

theorem ne_current (ht : t ∈ L q) : t ≠ k.current := fun e => h.held q (e ▸ ht)

theorem ne_null_of_realTime (hrt : (k.data t).realTime = true) : t ≠ tidNull := fun e => by
  rw [e, h.null.2] at hrt
  cases hrt

theorem nodup (q : Option (Fin 5)) : (L q).Nodup := (h.listed.chain q).nodup

/-- The same lists on a state that differs in the tick count and the like. -/
theorem frame (ht : k'.toTasks = k.toTasks) (hc : k'.current = k.current) : Lined k' L := by
  obtain ⟨s, c, _⟩ := k
  obtain ⟨s', c', _⟩ := k'
  obtain rfl : s' = s := ht
  obtain rfl : c' = c := hc
  exact ⟨h.listed, h.held, h.member, h.running, h.null⟩

/-- The same lists on a state that differs in the states of other tasks than the running one. -/
theorem restate (hl : Listed k' L k'.Loose) (hr : Restated k k')
    (hc : k'.current = k.current) (hs : (k'.data k.current).state = .running) : Lined k' L :=
  ⟨hl, fun q => hc ▸ h.held q, fun q u hu => hr.ranked.mpr (h.member q u hu), hc ▸ hs,
    hr.null h.null⟩

/-- Writing the state of a task in one of the queues. -/
theorem setTaskState (ht : t ≠ k.current) (v : TaskState) : Lined (k.setTaskState t v) L := by
  refine h.restate (h.listed.setTaskState t v) (restated_setTaskState k t v) rfl ?_
  rw [k.data_setTaskState]
  exact (congrArg TcbData.state (Function.update_of_ne ht.symm _ _)).trans h.running

end

/-! ## 4. The suspended tasks -/

/-- A round of the loop that finds the task `t` due: it becomes ready. -/
theorem wakeDue {pre rest : List Tid} (h : Lined k L) (hL : L none = pre ++ t :: rest) :
    ∃ s s', k.popTask t .suspend = .ok { k with toTasks := s } ∧
      (do
        let k := Kernel.setTaskState { k with toTasks := s } t .ready
        k.pushTail t (← readyAt (priority2order (k.tcb t).prio))) =
          .ok { k with toTasks := s' } ∧
      Lined { k with toTasks := s' } (Function.update (Function.update L none (pre ++ rest))
        (some 0) (k.toTasks.queued t (L (some 0)))) ∧
      Restated k { k with toTasks := s' } ∧ (k.data t).realTime = true := by
  have ht : t ∈ L none := hL ▸ List.mem_append_right pre List.mem_cons_self
  have hrank : (k.data t).Ranked 0 := h.member none t ht
  obtain ⟨s, h1, h2, h3⟩ := h.listed.popTask hL
  set L₁ := Function.update L none (pre ++ rest) with hL₁
  have hnot : ∀ q, t ∉ L₁ q := by
    intro q hq
    by_cases e : q = none
    · subst e
      rw [hL₁, Function.update_self] at hq
      have hnd := h.nodup none
      rw [hL] at hnd
      exact (List.nodup_middle.mp hnd).notMem hq
    · rw [hL₁, Function.update_of_ne e] at hq
      exact e (h.listed.disj q none t hq ht)
  -- the task is made ready, and queued by its deadline
  have hr₁ : Restated k (Kernel.setTaskState { k with toTasks := s } t .ready) :=
    fun u => (restated_setTaskState { k with toTasks := s } t .ready u).trans (h3.stateless u)
  have hrank₁ := hr₁.ranked.mpr hrank
  obtain ⟨s', z, h4, hz, h5, h6⟩ := (h2.setTaskState t .ready).pushTail hnot
    (fun _ => hrank₁.prio) (some 0)
  have hr : Restated k { k with toTasks := s' } := hr₁.trans h6.stateless
  have hq : (Kernel.setTaskState { k with toTasks := s } t .ready).toTasks.queued t (L₁ (some 0)) =
      k.toTasks.queued t (L (some 0)) := by
    rw [Tasks.queued_congr (s := k.toTasks) hr₁.tskDeadline (hr₁.realTime t), hL₁,
      Function.update_of_ne (by simp)]
  rw [hq] at h5
  have hmem : ∀ q u, u ∈ Function.update L₁ (some 0) (k.toTasks.queued t (L (some 0))) q →
      u ≠ k.current ∧ (k.data u).Ranked (q.getD 0) := by
    intro q u hu
    by_cases e : q = some 0
    · subst e
      rw [Function.update_self, Tasks.mem_queued] at hu
      rcases hu with rfl | hu
      · exact ⟨h.ne_current ht, hrank⟩
      · exact ⟨h.ne_current hu, h.member _ u hu⟩
    · rw [Function.update_of_ne e] at hu
      have hu' : u ∈ L q := by
        by_cases e' : q = none
        · subst e'
          rw [hL₁, Function.update_self] at hu
          rw [hL]
          exact (List.sublist_cons_self t rest).append_left pre |>.subset hu
        · rwa [hL₁, Function.update_of_ne e'] at hu
      exact ⟨h.ne_current hu', h.member q u hu'⟩
  have hcur : s'.data k.current = k.data k.current := by
    have h0 : L₁ (some 0) = L (some 0) := Function.update_of_ne (by simp) _ _
    rw [h0] at hz
    have hzc : k.current ≠ z := by
      rcases hz with rfl | hz
      · exact (h.ne_current ht).symm
      · exact (h.ne_current hz).symm
    have htc : k.current ≠ t := (h.ne_current ht).symm
    have h7 : s'.data k.current = (Kernel.setTaskState { k with toTasks := s } t .ready).data
        k.current := h6.of_ne hzc
    rw [h7, Kernel.data_setTaskState, Function.update_of_ne htc]
    exact h3.of_ne htc
  refine ⟨s, s', h1, (bind_of_ok hrank₁.readyAt).trans h4,
    ⟨h5, fun q hq => (hmem q _ hq).1 rfl, fun q u hu => hr.ranked.mpr (hmem q u hu).2,
      (congrArg TcbData.state hcur).trans h.running, hr.null h.null⟩, hr, hrank.isRealTime.1⟩

/-- **The loop over the suspended tasks** moves those that are due. The induction is on the part of
    the list that is still ahead. -/
theorem releaseDue (h : Lined k L) {fuel : Nat} (pre rest : List Tid)
    (hL : L none = pre ++ rest) (hf : rest.length ≤ fuel) :
    ∃ s L', Kernel.releaseDue fuel k rest.head? = .ok { k with toTasks := s } ∧
      Lined { k with toTasks := s } L' ∧ Restated k { k with toTasks := s } ∧
      L' none = pre ++ rest.filter (fun t => !k.due t) ∧
      (∀ t, t ∈ L' (some 0) ↔ t ∈ L (some 0) ∨ (t ∈ rest ∧ k.due t = true)) ∧
      (∀ i, i ≠ 0 → L' (some i) = L (some i)) ∧
      (Sorted k L → Sorted { k with toTasks := s } L') := by
  induction rest generalizing k L pre fuel with
  | nil =>
      refine ⟨k.toTasks, L, ?_, h, Restated.refl k, hL, fun t => by simp, fun _ _ => rfl, id⟩
      cases fuel <;> rfl
  | cons t rest ih =>
      obtain ⟨fuel, rfl⟩ : ∃ n, fuel = n + 1 := ⟨fuel - 1, by rw [List.length_cons] at hf; omega⟩
      have hf' : rest.length ≤ fuel := by
        rw [List.length_cons] at hf
        omega
      have hnext : (k.tcb t).next = rest.head? := by
        have := (h.listed.chain none).linked
        rw [hL] at this
        exact this.next_append
      rw [List.head?_cons]
      unfold Kernel.releaseDue
      simp only [hnext]
      by_cases hdue : k.due t = true
      · rw [if_pos hdue]
        obtain ⟨s, s₁, h1, h2, h3, h4, hrt⟩ := h.wakeDue hL
        have hsame : ∀ u, Kernel.due { k with toTasks := s₁ } u = k.due u := fun u => by
          unfold Kernel.due
          exact congrArg₂ (fun d p => decide (sub32 d p ≤ k.timerCount)) (h4.tskDeadline u)
            (h4.tskPeriod u)
        obtain ⟨s', L', h5, h6, h7, h8, h9, h10, h11⟩ := ih h3 pre
          (by rw [Function.update_of_ne (by simp), Function.update_self]) hf'
        refine ⟨s', L', ?_, h6, h4.trans h7, ?_, fun u => ?_, fun i hi => ?_, fun hs => h11 ?_⟩
        · refine (bind_of_ok h1).trans ?_
          obtain ⟨q, hq, hpush⟩ := bind_eq_ok.mp h2
          exact (bind_of_ok hq).trans ((bind_of_ok hpush).trans h5)
        · simp only [hsame] at h8
          rw [h8, List.filter_cons_of_neg (by simp [hdue])]
        · rw [h9 u, Function.update_self, Tasks.mem_queued, hsame, List.mem_cons]
          constructor
          · rintro ((rfl | hu) | ⟨hu, hd⟩)
            · exact Or.inr ⟨Or.inl rfl, hdue⟩
            · exact Or.inl hu
            · exact Or.inr ⟨Or.inr hu, hd⟩
          · rintro (hu | ⟨rfl | hu, hd⟩)
            · exact Or.inl (Or.inr hu)
            · exact Or.inl (Or.inl rfl)
            · exact Or.inr ⟨hu, hd⟩
        · rw [h10 i hi, Function.update_of_ne (by simpa using hi), Function.update_of_ne (by simp)]
        · have h12 := (hs.update (q := none) (l := pre ++ rest) (by simp)).queued hrt
          rw [Function.update_of_ne (Option.some_ne_none 0)] at h12
          exact (sorted_congr h4.tskDeadline).mpr h12
      · rw [if_neg hdue]
        obtain ⟨s', L', h1, h2, h3, h4, h5, h6⟩ := ih h (pre ++ [t]) (by simp [hL]) hf'
        refine ⟨s', L', h1, h2, h3, ?_, fun u => ?_, h6⟩
        · rw [h4, List.filter_cons_of_pos (by simp [hdue])]
          simp
        · rw [h5 u, List.mem_cons]
          constructor
          · rintro (hu | ⟨hu, hd⟩)
            · exact Or.inl hu
            · exact Or.inr ⟨Or.inr hu, hd⟩
          · rintro (hu | ⟨rfl | hu, hd⟩)
            · exact Or.inl hu
            · exact absurd hd hdue
            · exact Or.inr ⟨hu, hd⟩

end Lined

/-! ## 5. The choice of the interrupt -/

/-- The task is in one of the lists. -/
def Lines.Has (L : Lines) (t : Tid) : Prop := ∃ q, t ∈ L q

instance Lines.Has.decidable (L : Lines) (t : Tid) : Decidable (L.Has t) :=
  inferInstanceAs (Decidable (∃ _, _))

/-- A list that has got a member. -/
theorem Lines.has_update {a : Tid} (hl : ∀ u, u ∈ l ↔ u = a ∨ u ∈ L q) :
    Lines.Has (Function.update L q l) u ↔ u = a ∨ L.Has u := by
  constructor
  · rintro ⟨q', hu⟩
    by_cases e : q' = q
    · subst e
      rw [Function.update_self, hl] at hu
      exact hu.imp_right fun hu => ⟨q', hu⟩
    · rw [Function.update_of_ne e] at hu
      exact Or.inr ⟨q', hu⟩
  · intro hu
    by_cases hq : u = a ∨ u ∈ L q
    · exact ⟨q, by rw [Function.update_self]; exact (hl u).mpr hq⟩
    · obtain ⟨h1, h2⟩ := not_or.mp hq
      obtain ⟨q', hu⟩ := hu.resolve_left h1
      have e : q' ≠ q := fun e => h2 (e ▸ hu)
      exact ⟨q', by rw [Function.update_of_ne e]; exact hu⟩

/-- A list that has lost its first member. -/
theorem Lines.has_tail (hL : L q = t :: l) :
    L.Has u ↔ u = t ∨ Lines.Has (Function.update L q l) u := by
  have h := Lines.has_update (L := Function.update L q l) (q := q) (l := t :: l) (a := t) (u := u)
    fun v => by rw [Function.update_self, List.mem_cons]
  rwa [Function.update_idem, ← hL, Function.update_eq_self] at h

/-- No real-time task that runs or is ready has an earlier deadline than the real-time task `t`. -/
def Earliest (k : Kernel) (L : Lines) (t : Tid) : Prop :=
  ∀ u, (k.data u).realTime = true → (u = k.current ∨ u ∈ L (some 0)) →
    (k.data t).realTime = true ∧ (k.data t).tskDeadline ≤ (k.data u).tskDeadline

/-- The task stood in the queue already, or it is the one that ran and the queue is that of its
    priority. -/
def Kernel.Joins (k : Kernel) (L : Lines) (q : Option (Fin 5)) (t : Tid) : Prop :=
  t ∈ L q ∨ (t = k.current ∧ t ≠ tidNull ∧
    ∃ i : Fin 5, q = some i ∧ (k.data t).prio = order2priority i.val)

/-- **What the choice of the interrupt leaves**: every task still has its place, the earliest of the
    real-time tasks runs, and it is counted if it did not run before. -/
structure Chooses (k k' : Kernel) (L L' : Lines) : Prop where
  listed : Listed k' L' k'.Loose
  held : ∀ q, k'.current ∉ L' q
  running : (k'.data k'.current).state = .running
  joins : ∀ q, ∀ t ∈ L' q, k.Joins L q t
  chosen : k'.current = k.current ∨ L.Has k'.current
  timerCount : k'.timerCount = k.timerCount
  suspended : L' none = L none
  places : ∀ t, t ≠ tidNull → ((t = k'.current ∨ L'.Has t) ↔ (t = k.current ∨ L.Has t))
  sorted : Sorted k L → Sorted k' L'
  earliest : Sorted k L → Earliest k L k'.current
  strict : k'.current ≠ k.current → k.cur.realTime = true →
    (k.data k'.current).tskDeadline < k.cur.tskDeadline
  counted : (k'.current = k.current ∧ Restated k k') ∨ (k'.current ≠ k.current ∧
    ∃ k₁, Restated k k₁ ∧ k₁.current = k'.current ∧
      k' = if (k.data k'.current).realTime then k₁.countExecution k₁.current else k₁)

/-- Counting an execution changes no other field. -/
theorem countExecution_field (k : Kernel) (t u : Tid) {α : Type} (f : TcbData → α)
    (hf : ∀ d n, f { d with nthExecution := n } = f d) :
    f ((k.countExecution t).data u) = f (k.data u) := by
  unfold Kernel.countExecution
  rw [Kernel.data_modifyTcb, Function.update_apply]
  split
  next e => rw [hf, e]
  · rfl

/-- A field other than the state and the number of executions. -/
theorem Chooses.field (h : Chooses k k' L L') {α : Type} (f : TcbData → α)
    (hf : ∀ d v n, f { d with state := v, nthExecution := n } = f d) (t : Tid) :
    f (k'.data t) = f (k.data t) := by
  have hr : ∀ {k₁}, Restated k k₁ → f (k₁.data t) = f (k.data t) := fun hr =>
    hr.field f (fun d => hf d .dormant d.nthExecution) t
  rcases h.counted with ⟨-, h1⟩ | ⟨-, k₁, h1, -, h2⟩
  · exact hr h1
  rw [h2]
  split
  · rw [countExecution_field k₁ _ t f fun d n => hf d d.state n]
    exact hr h1
  · exact hr h1

/-- Who is counted. -/
theorem Chooses.nthExecution (h : Chooses k k' L L') (t : Tid) :
    (k'.data t).nthExecution = (k.data t).nthExecution +
      if k'.current ≠ k.current ∧ t = k'.current ∧ (k.data t).realTime = true then 1 else 0 := by
  have hr : ∀ {k₁}, Restated k k₁ → (k₁.data t).nthExecution = (k.data t).nthExecution := fun hr =>
    hr.field TcbData.nthExecution (fun _ => rfl) t
  rcases h.counted with ⟨h1, h2⟩ | ⟨h1, k₁, h2, h3, h4⟩
  · rw [if_neg fun hc => hc.1 h1, hr h2, add_zero]
  generalize hc : k'.current = c at h1 h3 h4
  rw [h4]
  by_cases hrt : (k.data c).realTime = true
  · rw [if_pos hrt]
    unfold Kernel.countExecution
    rw [Kernel.data_modifyTcb, h3, Function.update_apply]
    by_cases e : t = c
    · subst e
      rw [if_pos rfl, if_pos ⟨h1, rfl, hrt⟩]
      exact congrArg (· + 1) (hr h2)
    · rw [if_neg e, if_neg fun hc => e hc.2.1, hr h2, add_zero]
  · have hno : ¬ (c ≠ k.current ∧ t = c ∧ (k.data t).realTime = true) := fun ⟨_, e, hc⟩ =>
      hrt (e ▸ hc)
    rw [if_neg hrt, if_neg hno, hr h2, add_zero]

theorem countExecution_sorted (k : Kernel) (t : Tid) :
    Sorted (k.countExecution t) L ↔ Sorted k L :=
  sorted_congr fun u => countExecution_field k t u TcbData.tskDeadline fun _ _ => rfl

/-- No two ready queues have one priority. -/
theorem order2priority_inj {i j : Fin 5} (h : order2priority i.val = order2priority j.val) :
    i = j := by
  revert i j
  decide

/-- In a lineup the task that ran joins the queue of its rank. -/
theorem Chooses.lineup (h : Chooses k k' L L') (hl : Lineup k L) : Lineup k' L' := by
  have hp := h.field TcbData.prio fun _ _ _ => rfl
  have hrt := h.field TcbData.realTime fun _ _ _ => rfl
  have hrank : ∀ {t i}, (k.data t).Ranked i → (k'.data t).Ranked i := fun {t i} hr =>
    ⟨(hp t).trans hr.prio, by rw [hrt]; exact hr.realTime⟩
  refine ⟨⟨h.listed, h.held, fun q t ht => hrank ?_, h.running, ?_⟩, fun h0 => ?_⟩
  · rcases h.joins q t ht with hq | ⟨rfl, h0, i, rfl, hi⟩
    · exact hl.member q t hq
    · obtain ⟨j, hj⟩ := hl.current h0
      obtain rfl := order2priority_inj (hi.symm.trans hj.prio)
      exact hj
  · rw [hp, hrt]
    exact hl.null
  · rcases h.chosen with hc | ⟨q, hq⟩
    · rw [hc] at h0 ⊢
      exact (hl.current h0).imp fun _ => hrank
    · exact ⟨_, hrank (hl.member q _ hq)⟩

/-! The running task may have to go back to a queue. -/

/-- The running task gives way to the real-time task `t` when that is ready. -/
def Kernel.GivesWay (k : Kernel) (t : Tid) : Prop :=
  k.current ≠ tidNull ∧ (k.cur.realTime = true → (k.data t).tskDeadline < k.cur.tskDeadline)

/-- The running task can go back to the ready queue `c` when the real-time tasks `R` are ready: a
    real-time task to the queue of its kind, any other not behind its time. -/
structure Kernel.Seat (k : Kernel) (R : Tid → Prop) (c : Fin 5) : Prop where
  prio : k.cur.prio = order2priority c.val
  realTime : k.cur.realTime = true → c = 0
  first : k.cur.realTime = false → c = 0 → ∀ u, R u → k.cur.tskDeadline ≤ (k.data u).tskDeadline

/-- **The running task has a place to go back to** if one of the real-time tasks `R` makes it give
    way. -/
def Kernel.Seated (k : Kernel) (R : Tid → Prop) : Prop :=
  ∀ t, R t → k.GivesWay t → ∃ c, k.Seat R c

instance Kernel.GivesWay.decidable (k : Kernel) (t : Tid) : Decidable (k.GivesWay t) :=
  inferInstanceAs (Decidable (_ ∧ _))

instance Kernel.Seat.decidable (k : Kernel) (R : Tid → Prop) [DecidablePred R] (c : Fin 5) :
    Decidable (k.Seat R c) :=
  decidable_of_iff (k.cur.prio = order2priority c.val ∧ (k.cur.realTime = true → c = 0) ∧
    (k.cur.realTime = false → c = 0 → ∀ u, R u → k.cur.tskDeadline ≤ (k.data u).tskDeadline))
    ⟨fun ⟨h1, h2, h3⟩ => ⟨h1, h2, h3⟩, fun h => ⟨h.prio, h.realTime, h.first⟩⟩

instance Kernel.Seated.decidable (k : Kernel) (R : Tid → Prop) [DecidablePred R] :
    Decidable (k.Seated R) :=
  inferInstanceAs (Decidable (∀ _, _))

theorem Kernel.Seated.frame {R : Tid → Prop} (h : k.Seated R) (ht : k'.tcb = k.tcb)
    (hc : k'.current = k.current) : k'.Seated R := by
  have hcur : k'.cur = k.cur := by
    unfold Kernel.cur
    rw [ht, hc]
  have hd : k'.data = k.data := by
    unfold Tasks.data
    rw [ht]
  unfold Kernel.Seated Kernel.GivesWay at h ⊢
  simp only [hcur, hc, hd]
  intro t hR hg
  obtain ⟨c, h1, h2, h3⟩ := h t hR hg
  refine ⟨c, ⟨hcur ▸ h1, hcur ▸ h2, ?_⟩⟩
  rw [hcur, hd]
  exact h3

/-- A task with a rank has one: the queue of its rank. -/
theorem Lineup.seated (h : Lineup k L) (R : Tid → Prop) : k.Seated R := by
  rintro t - ⟨h0, -⟩
  obtain ⟨c, hc⟩ := h.current h0
  refine ⟨c, hc.prio, hc.realTime.mp, fun hrt e => ?_⟩
  rw [show k.cur.realTime = true from hc.realTime.mpr e] at hrt
  cases hrt

theorem switchTo_state (k : Kernel) (t : Tid) : ((k.switchTo t).data t).state = .running := by
  unfold Kernel.switchTo
  rw [Kernel.data_setTaskState, Function.update_self]

/-- A task that is in no queue and has no successor goes on. -/
theorem Lineup.switchTo (h : Listed k L fun u => u ≠ t ∨ u = tidNull) (hheld : ∀ q, t ∉ L q)
    (hm : ∀ q, ∀ u ∈ L q, (k.data u).Ranked (q.getD 0))
    (hc : t ≠ tidNull → ∃ i, (k.data t).Ranked i)
    (h0 : (k.data tidNull).prio = prioNull ∧ (k.data tidNull).realTime = false) :
    Lineup (k.switchTo t) L := by
  have hr := restated_switchTo k t
  refine ⟨⟨h.setTaskState t .running, hheld, fun q u hu => hr.ranked.mpr (hm q u hu),
    switchTo_state k t, hr.null h0⟩, fun hne => ?_⟩
  obtain ⟨i, hi⟩ := hc hne
  exact ⟨i, hr.ranked.mpr hi⟩

namespace Lined

section

variable (h : Lined k L) {i : Fin 5} (hL : L (some i) = t :: l)
include h hL

/-- The task the scheduler takes is the earliest of the real-time tasks, if one is ready. -/
theorem first_realTime (hj : ∀ j, j < i → L (some j) = []) (hu : u ∈ L (some 0)) :
    (k.data t).realTime = true ∧
      (Sorted k L → (k.data t).tskDeadline ≤ (k.data u).tskDeadline) := by
  obtain rfl : i = 0 := by
    by_contra e
    rw [hj 0 (Fin.pos_of_ne_zero e)] at hu
    exact List.not_mem_nil hu
  refine ⟨(h.member (some 0) t (hL ▸ List.mem_cons_self)).isRealTime.1, fun hs => ?_⟩
  unfold Sorted at hs
  rw [hL] at hu hs
  rcases List.mem_cons.mp hu with rfl | hu
  · exact le_rfl
  · exact (List.pairwise_cons.mp hs).1 u hu

end

section

variable (h : Lined k L)
include h

omit h in
/-- The task `t` is switched to. -/
theorem switches (hr : Restated k k₁) (hc : k₁.timerCount = k.timerCount)
    (hl : Listed k₁ L' fun u => u ≠ t ∨ u = tidNull) (hheld : ∀ q, t ∉ L' q)
    (hj : ∀ q, ∀ u ∈ L' q, k.Joins L q u) (ht : L.Has t) (hne : t ≠ k.current)
    (hs : L' none = L none)
    (hp : ∀ u, (u = t ∨ L'.Has u) ↔ (u = k.current ∧ u ≠ tidNull ∨ L.Has u))
    (hso : Sorted k L → Sorted k L') (he : Sorted k L → Earliest k L t)
    (hst : k.cur.realTime = true → (k.data t).tskDeadline < k.cur.tskDeadline) :
    Chooses k (if (k.data t).realTime then (k₁.switchTo t).countExecution t else k₁.switchTo t)
      L L' := by
  have hl' : Listed (k₁.switchTo t) L' fun u => u ≠ t ∨ u = tidNull := hl.setTaskState t .running
  have hso' : Sorted k L → Sorted (k₁.switchTo t) L' := fun h =>
    (sorted_congr (hr.trans (restated_switchTo k₁ t)).tskDeadline).mpr (hso h)
  have hp' : ∀ u, u ≠ tidNull → ((u = t ∨ L'.Has u) ↔ (u = k.current ∨ L.Has u)) := fun u h0 => by
    rw [hp u, and_iff_left h0]
  have hcnt : ∃ k₂, Restated k k₂ ∧ k₂.current = t ∧
      (if (k.data t).realTime then (k₁.switchTo t).countExecution t else k₁.switchTo t) =
        if (k.data t).realTime then k₂.countExecution k₂.current else k₂ :=
    ⟨k₁.switchTo t, hr.trans (restated_switchTo k₁ t), rfl, rfl⟩
  by_cases hrt : (k.data t).realTime = true
  · rw [if_pos hrt] at hcnt ⊢
    have hrun := countExecution_field (k₁.switchTo t) t t TcbData.state fun _ _ => rfl
    exact ⟨hl'.modifyTcb t _, hheld, hrun.trans (switchTo_state k₁ t), hj, Or.inr ht, hc, hs, hp',
      fun h => (countExecution_sorted _ t).mpr (hso' h), he, fun _ => hst, Or.inr ⟨hne, hcnt⟩⟩
  · rw [if_neg hrt] at hcnt ⊢
    exact ⟨hl', hheld, switchTo_state k₁ t, hj, Or.inr ht, hc, hs, hp', hso', he, fun _ => hst,
      Or.inr ⟨hne, hcnt⟩⟩

omit h in
/-- The running task stays. -/
theorem stays (hl : Lined k' L) (hr : Restated k k') (hc : k'.current = k.current)
    (hcnt : k'.timerCount = k.timerCount)
    (he : Sorted k L → Earliest k L k.current) : Chooses k k' L L :=
  ⟨hl.listed, hl.held, hl.running, fun _ _ => Or.inl, Or.inl hc, hcnt, rfl, fun u _ => by rw [hc],
    (sorted_congr hr.tskDeadline).mpr, fun h => hc ▸ he h, fun hne => absurd hc hne,
    Or.inl ⟨hc, hr⟩⟩

/-- A task that was taken goes back to the head of its queue. -/
theorem putBack {i : Fin 5} (hL : L (some i) = t :: l) {s : Tasks Tid QId}
    (h1 : Listed { k with toTasks := s } (Function.update L (some i) l) k.Loose)
    (h2 : k.toTasks.Marks s t) (h3 : (s.tcb t).next = none) :
    ∃ k', Kernel.putBack { k with toTasks := s } t = .ok k' ∧ Lined k' L ∧ Restated k k' ∧
      k'.current = k.current ∧ k'.timerCount = k.timerCount := by
  have hmem : t ∈ L (some i) := hL ▸ List.mem_cons_self
  have hr : Restated k { k with toTasks := s } := h2.stateless
  have hrank : (s.data t).Ranked i := hr.ranked.mpr (h.member _ t hmem)
  obtain ⟨h4, h5⟩ := h1.pushHead (h.listed.taken hL).2.1 h3 (some i)
  rw [Function.update_self, Function.update_idem, ← hL, Function.update_eq_self] at h4
  have hct : k.current ≠ t := (h.ne_current hmem).symm
  have hr' := hr.trans h5.stateless
  refine ⟨_, bind_of_ok hrank.readyAt, h.restate h4 hr' rfl ?_, hr', rfl, rfl⟩
  have h6 : s.data k.current = k.data k.current := h2.of_ne hct
  exact (congrArg TcbData.state ((h5.of_ne hct).trans h6)).trans h.running

/-- The null task makes way for any other. -/
theorem preemptNull (h0 : k.current = tidNull) : ∃ L', Chooses k k.preemptNull L L' := by
  have hnrt : (k.data k.current).realTime = false := h0 ▸ h.null.2
  unfold Kernel.preemptNull
  rcases h.listed.scheduler with ⟨hs, hL⟩ | ⟨i, t, l, s, hL, hj, hs, h1, h2, h3⟩
  · rw [hs]
    simp only [ne_eq, not_true_eq_false, if_false]
    refine ⟨L, stays h (Restated.refl k) rfl rfl fun _ u hu hm => ?_⟩
    rcases hm with rfl | hm
    · rw [hnrt] at hu
      cases hu
    · rw [hL 0] at hm
      exact absurd hm List.not_mem_nil
  have hmem : t ∈ L (some i) := hL ▸ List.mem_cons_self
  have hr : Restated k { k with toTasks := s } := h2.stateless
  obtain ⟨h4, h5, h6⟩ := h.listed.taken hL
  rw [hs]
  have hrt : ((Kernel.switchTo { k with toTasks := s } t).tcb t).realTime =
      (k.data t).realTime := (hr.trans (restated_switchTo _ t)).realTime t
  simp only [if_pos (h.ne_null hmem), hrt]
  refine ⟨_, switches hr rfl ((h1.only h3).mono fun _ => Or.inl) h5
    (fun q u hu => Or.inl (h4 q u hu)) ⟨_, hmem⟩ (h.ne_current hmem)
      (Function.update_of_ne (by simp) _ _) (fun u => ?_) h6 (fun hso u hu hm => ?_) fun hc => ?_⟩
  · rw [Lines.has_tail hL, h0]
    exact (or_iff_right fun hn => hn.2 hn.1).symm
  · rcases hm with rfl | hm
    · rw [hnrt] at hu
      cases hu
    · exact (h.first_realTime hL hj hm).imp_right fun h => h hso
  · rw [show k.cur.realTime = false from hnrt] at hc
    cases hc

/-- The running task goes back to the queue of its priority, and `t` is switched to. -/
theorem displaces {i c : Fin 5} (hL : L (some i) = t :: l) (hc : k.cur.prio = order2priority c.val)
    (h0 : k.current ≠ tidNull) {l' : List Tid} (hr : Restated k k₁)
    (hcnt : k₁.timerCount = k.timerCount)
    (hl : Listed k₁ (Function.update (Function.update L (some i) l) (some c) l') (· ≠ t))
    (hm : ∀ u, u ∈ l' ↔ u = k.current ∨ u ∈ Function.update L (some i) l (some c))
    (hso : Sorted k (Function.update L (some i) l) →
      Sorted k (Function.update (Function.update L (some i) l) (some c) l'))
    (he : Sorted k L → Earliest k L t)
    (hst : k.cur.realTime = true → (k.data t).tskDeadline < k.cur.tskDeadline) :
    Chooses k (if (k.data t).realTime then (k₁.switchTo t).countExecution t else k₁.switchTo t)
      L (Function.update (Function.update L (some i) l) (some c) l') := by
  obtain ⟨h1, h2, h3⟩ := h.listed.taken hL
  have hmem : t ∈ L (some i) := hL ▸ List.mem_cons_self
  have htc : t ≠ k.current := h.ne_current hmem
  -- who is in the lists now
  have hin : ∀ q u, u ∈ Function.update (Function.update L (some i) l) (some c) l' q →
      u ≠ t ∧ k.Joins L q u := by
    intro q u hu
    have hold : ∀ q, u ∈ Function.update L (some i) l q → u ≠ t ∧ k.Joins L q u := fun q hu =>
      ⟨fun e => h2 q (e ▸ hu), Or.inl (h1 q u hu)⟩
    by_cases e : q = some c
    · subst e
      rw [Function.update_self, hm] at hu
      rcases hu with rfl | hu
      · exact ⟨htc.symm, Or.inr ⟨rfl, h0, c, rfl, hc⟩⟩
      · exact hold _ hu
    · rw [Function.update_of_ne e] at hu
      exact hold q hu
  refine switches hr hcnt (hl.mono fun _ => Or.inl) (fun q hq => (hin q t hq).1 rfl)
    (fun q u hu => (hin q u hu).2) ⟨_, hmem⟩ htc ?_ (fun u => ?_) (fun h => hso (h3 h)) he hst
  · rw [Function.update_of_ne (by simp), Function.update_of_ne (by simp)]
  · rw [Lines.has_update hm, Lines.has_tail hL]
    have hnull : u = k.current → u ≠ tidNull := fun e => e ▸ h0
    rw [and_iff_left_of_imp hnull]
    exact or_left_comm

/-- A real-time task makes way for one whose deadline is earlier; it cannot do without another
    ready task. -/
theorem preemptRealTime (h0 : k.current ≠ tidNull) (hrt : k.cur.realTime = true)
    (hseat : k.Seated (· ∈ L (some 0))) (hready : ∃ i, L (some i) ≠ []) :
    ∃ k' L', k.preemptRealTime = .ok k' ∧ Chooses k k' L L' := by
  have hrun : k.cur.state = .running := h.running
  unfold Kernel.preemptRealTime
  rw [hrun]
  simp only [reduceCtorEq, or_self, if_false, if_true]
  rcases h.listed.scheduler with ⟨-, hL⟩ | ⟨i, t, l, s, hL, hj, hs, h1, h2, h3⟩
  · obtain ⟨i, hi⟩ := hready
    exact absurd (hL i) hi
  have hmem : t ∈ L (some i) := hL ▸ List.mem_cons_self
  have hrank := h.member _ t hmem
  have hct : k.current ≠ t := (h.ne_current hmem).symm
  have hr : Restated k { k with toTasks := s } := h2.stateless
  have hcd : s.data k.current = k.data k.current := h2.of_ne hct
  have htd := hr.tskDeadline t
  rw [hs]
  dsimp only
  have hback : (Sorted k L →
      ∀ u ∈ L (some 0), (k.data k.current).tskDeadline ≤ (k.data u).tskDeadline) →
      ∃ k' L', Kernel.putBack { k with toTasks := s } t = .ok k' ∧ Chooses k k' L L' := by
    intro hd
    obtain ⟨k', h4, h5, h6, h7, h8⟩ := h.putBack hL h1 h2 h3
    refine ⟨k', L, h4, stays h5 h6 h7 h8 fun hso u _ hm => ⟨hrt, ?_⟩⟩
    rcases hm with rfl | hm
    · exact le_rfl
    · exact hd hso u hm
  by_cases hrt' : (s.tcb t).realTime = true
  · rw [if_pos hrt']
    obtain rfl : i = 0 := (hr.ranked.mpr hrank).realTime.mp hrt'
    by_cases hlt : (s.tcb t).tskDeadline < (Kernel.cur { k with toTasks := s }).tskDeadline
    · -- the running task goes back to its queue, and the one with the earlier deadline runs
      rw [if_pos hlt]
      have hlt' : (k.data t).tskDeadline < (k.data k.current).tskDeadline := by
        rw [← htd, ← hcd]
        exact hlt
      obtain ⟨c, hc⟩ := hseat t hmem ⟨h0, fun _ => hlt'⟩
      obtain rfl : c = 0 := hc.realTime hrt
      have hcp : (s.data k.current).prio = order2priority (0 : Fin 5).val := by
        rw [hcd]
        exact hc.prio
      obtain ⟨h4, h5, h6⟩ := h.listed.taken hL
      have h7 : Listed { k with toTasks := s } (Function.update L (some 0) l)
          fun u => u ≠ t ∨ u = k.current := (h1.only h3).mono fun _ => Or.inl
      obtain ⟨s', z, h8, -, h9, h10⟩ := h7.pushTail (fun q hq => h.held q (h4 q _ hq))
        (fun _ => hcp) (some 0)
      have hr₁ : Restated { k with toTasks := s } { k with toTasks := s' } := h10.stateless
      have hr' : Restated k { k with toTasks := s'.setState k.current .ready } :=
        (hr.trans hr₁).trans (restated_setTaskState { k with toTasks := s' } k.current .ready)
      have hqueued : s.queued k.current (Function.update L (some 0) l (some 0)) =
          k.toTasks.queued k.current (Function.update L (some 0) l (some 0)) :=
        Tasks.queued_congr (s := k.toTasks) hr.tskDeadline (hr.realTime _) _
      have h11 := h.displaces hL hc.prio h0 hr' rfl (h9.setTaskState k.current .ready)
        (fun u => Tasks.mem_queued) (fun hso => ?_) (fun hso u _ hm => ?_) fun _ => hlt'
      · rw [if_pos (hrank.realTime.mpr rfl)] at h11
        exact ⟨_, _, (bind_of_ok (readyAt_priority.mpr hcp)).trans (bind_of_ok h8), h11⟩
      · have h12 := hso.queued hrt
        rw [← hqueued] at h12
        exact h12
      · rcases hm with rfl | hm
        · exact ⟨hrank.realTime.mpr rfl, hlt'.le⟩
        · exact (h.first_realTime hL hj hm).imp_right fun h => h hso
    · rw [if_neg hlt]
      refine hback fun hso u hu => le_trans ?_ ((h.first_realTime hL hj hu).2 hso)
      rw [← htd, ← hcd]
      exact not_lt.mp hlt
  · rw [if_neg hrt']
    refine hback fun _ u hu => absurd ?_ hrt'
    exact (hr.realTime t).trans (h.first_realTime hL hj hu).1

/-- Any other task makes way for a real-time task. -/
theorem preemptOther (h0 : k.current ≠ tidNull) (hrt : k.cur.realTime = false)
    (hseat : k.Seated (· ∈ L (some 0))) :
    ∃ k' L', k.preemptOther = .ok k' ∧ Chooses k k' L L' := by
  unfold Kernel.preemptOther
  have hnot : ∀ u, (k.data u).realTime = true → u ≠ k.current := fun u hu e => by
    rw [e, show (k.data k.current).realTime = false from hrt] at hu
    cases hu
  rcases h.listed.scheduler with ⟨hs, hL⟩ | ⟨i, t, l, s, hL, hj, hs, h1, h2, h3⟩
  · rw [hs]
    simp only [ne_eq, not_true_eq_false, if_false]
    refine ⟨k, L, rfl, stays h (Restated.refl k) rfl rfl fun _ u hu hm => ?_⟩
    have hm := hm.resolve_left (hnot u hu)
    rw [hL 0] at hm
    exact absurd hm List.not_mem_nil
  have hmem : t ∈ L (some i) := hL ▸ List.mem_cons_self
  have hrank := h.member _ t hmem
  have hr : Restated k { k with toTasks := s } := h2.stateless
  rw [hs]
  simp only [if_pos (h.ne_null hmem)]
  by_cases hrt' : (s.tcb t).realTime = true
  · rw [if_pos hrt']
    obtain rfl : i = 0 := (hr.ranked.mpr hrank).realTime.mp hrt'
    obtain ⟨c, hc⟩ := hseat t hmem ⟨h0, fun e => (hnot _ e rfl).elim⟩
    obtain ⟨h4, h5, h6⟩ := h.listed.taken hL
    -- the running task is in no queue and has no successor
    have hcn : (s.tcb k.current).next = none :=
      h1.next (fun q hq => h.held q (h4 q _ hq)) fun e => e.elim (fun e => e rfl) h0
    have hr₁ : Restated k (Kernel.setTaskState { k with toTasks := s } k.current .ready) :=
      hr.trans (restated_setTaskState { k with toTasks := s } k.current .ready)
    have hcp := (hr₁.field TcbData.prio (fun _ => rfl) k.current).trans hc.prio
    obtain ⟨h7, h8⟩ := ((h1.only h3).setTaskState k.current .ready).pushHead
      (fun q hq => h.held q (h4 q _ hq))
      ((Tasks.modify_next s k.current k.current fun d => { d with state := .ready }).trans hcn)
      (some c)
    have hso : Sorted k (Function.update L (some 0) l) →
        Sorted k (Function.update (Function.update L (some 0) l) (some c)
          (k.current :: Function.update L (some 0) l (some c))) := by
      intro hso
      by_cases e : c = 0
      · subst e
        unfold Sorted at hso ⊢
        rw [Function.update_self] at hso ⊢
        refine List.pairwise_cons.mpr ⟨fun u hu => hc.first hrt rfl u ?_, hso⟩
        exact h4 (some 0) u hu
      · exact hso.update fun e' => e (Option.some.inj e').symm
    have h9 := h.displaces hL hc.prio h0 (hr₁.trans h8.stateless) rfl h7 (fun u => List.mem_cons)
      hso (fun hso u hu hm =>
        (h.first_realTime hL hj (hm.resolve_left (hnot u hu))).imp_right fun h => h hso)
      fun hc => absurd rfl (hnot k.current hc)
    rw [if_pos (hrank.realTime.mpr rfl)] at h9
    exact ⟨_, _, bind_of_ok (readyAt_priority.mpr hcp), h9⟩
  · rw [if_neg hrt']
    obtain ⟨k', h4, h5, h6, h7, h8⟩ := h.putBack hL h1 h2 h3
    refine ⟨k', L, h4, stays h5 h6 h7 h8 fun _ u hu hm => absurd ?_ hrt'⟩
    have hm := hm.resolve_left (hnot u hu)
    exact (hr.realTime t).trans (h.first_realTime hL hj hm).1

/-- **The choice of the interrupt.** It fails only when a real-time task runs and nobody is
    ready. -/
theorem preempt (hseat : k.Seated (· ∈ L (some 0)))
    (hready : k.cur.realTime = true → ∃ i, L (some i) ≠ []) :
    ∃ k' L', k.preempt = .ok k' ∧ Chooses k k' L L' := by
  unfold Kernel.preempt
  by_cases h0 : k.current = tidNull
  · rw [if_pos h0]
    obtain ⟨L', h1⟩ := h.preemptNull h0
    exact ⟨_, L', rfl, h1⟩
  rw [if_neg h0]
  by_cases hrt : k.cur.realTime = true
  · rw [if_pos hrt]
    exact h.preemptRealTime h0 hrt hseat (hready hrt)
  · rw [if_neg hrt]
    exact h.preemptOther h0 (Bool.eq_false_iff.mpr hrt) hseat

end

end Lined

/-! ## 6. The interrupt -/

/-- **What the loop over the suspended tasks leaves**: the tasks that are due are in the queue of
    the real-time tasks. -/
structure Releases (k k' : Kernel) (L L' : Lines) : Prop where
  lined : Lined k' L'
  restated : Restated k k'
  current : k'.current = k.current
  timerCount : k'.timerCount = k.timerCount
  suspended : L' none = (L none).filter fun t => !k.due t
  released : ∀ t, t ∈ L' (some 0) ↔ t ∈ L (some 0) ∨ (t ∈ L none ∧ k.due t = true)
  others : ∀ i, i ≠ 0 → L' (some i) = L (some i)
  sorted : Sorted k L → Sorted k' L'

/-- The running task keeps its rank. -/
theorem Releases.lineup {n : Nat} (h : Releases { k with timerCount := n } k' L L')
    (hl : Lineup k L) : Lineup k' L' := by
  refine ⟨h.lined, fun h0 => ?_⟩
  rw [h.current] at h0 ⊢
  exact (hl.current h0).imp fun _ => h.restated.ranked.mpr

/-- A task has a place if and only if it had one. -/
theorem Releases.has (h : Releases k k' L L') (t : Tid) : L'.Has t ↔ L.Has t := by
  constructor
  · rintro ⟨q, hq⟩
    by_cases hn : q = none
    · subst hn
      rw [h.suspended] at hq
      exact ⟨none, List.mem_of_mem_filter hq⟩
    obtain ⟨i, rfl⟩ := Option.ne_none_iff_exists'.mp hn
    by_cases hi : i = 0
    · subst hi
      rcases (h.released t).mp hq with hq | ⟨hq, -⟩
      · exact ⟨some 0, hq⟩
      · exact ⟨none, hq⟩
    · exact ⟨some i, h.others i hi ▸ hq⟩
  · rintro ⟨q, hq⟩
    by_cases hn : q = none
    · subst hn
      by_cases hd : k.due t = true
      · exact ⟨some 0, (h.released t).mpr (Or.inr ⟨hq, hd⟩)⟩
      · refine ⟨none, ?_⟩
        rw [h.suspended]
        exact List.mem_filter.mpr ⟨hq, by simpa using hd⟩
    obtain ⟨i, rfl⟩ := Option.ne_none_iff_exists'.mp hn
    by_cases hi : i = 0
    · subst hi
      exact ⟨some 0, (h.released t).mpr (Or.inl hq)⟩
    · exact ⟨some i, (h.others i hi).symm ▸ hq⟩

/-- **The first half of the interrupt** releases the tasks that are due. -/
theorem Lined.releases (h : Lined k L) (hs : L none ≠ []) (tc pc : Nat) :
    ∃ k₁ L₁, k.timer0IrqHandler tc pc = k₁.preempt ∧
      Releases { k with timerCount := Kernel.correctRound tc pc } k₁ L L₁ := by
  set k₀ : Kernel := { k with timerCount := Kernel.correctRound tc pc } with hk₀
  obtain ⟨t, rest, hL⟩ := List.exists_cons_of_ne_nil hs
  have ht : t ≠ k.current := h.ne_current (hL ▸ List.mem_cons_self : t ∈ L none)
  have hhead : (k.queue .suspend).head = some t := by
    have := h.listed.head none
    rw [hL] at this
    exact this
  -- the first suspended task is marked as such
  have h₀ : Lined (k₀.setTaskState t .suspended) L :=
    Lined.setTaskState (k := k₀) (h.frame rfl rfl) ht .suspended
  have hr₀ : Restated k₀ (k₀.setTaskState t .suspended) := restated_setTaskState k₀ t .suspended
  have hdue : ∀ u, (k₀.setTaskState t .suspended).due u = k₀.due u := fun u =>
    congrArg₂ (fun d p => decide (sub32 d p ≤ k₀.timerCount)) (hr₀.tskDeadline u) (hr₀.tskPeriod u)
  have hlen : (t :: rest).length ≤ 2 ^ 32 := by
    have h1 := (h.nodup none).length_le_card
    rw [hL, Fintype.card_fin] at h1
    omega
  obtain ⟨s, L₁, h1, h2, h3, h4, h5, h6, hso⟩ := h₀.releaseDue [] (t :: rest) hL hlen
  simp only [hdue, List.nil_append, ← hL] at h4 h5
  refine ⟨_, L₁, ?_, ⟨h2, hr₀.trans h3, rfl, rfl, h4, h5, h6, fun h => hso ?_⟩⟩
  · unfold Kernel.timer0IrqHandler
    simp only [hhead]
    exact bind_of_ok h1
  · exact (sorted_congr hr₀.tskDeadline).mpr h

/-- The running task has its place still when the tasks that are due have been released. -/
theorem Releases.seated (h : Releases k k' L L')
    (hs : k.Seated fun t => t ∈ L (some 0) ∨ (t ∈ L none ∧ k.due t = true)) :
    k'.Seated (· ∈ L' (some 0)) := by
  have hcur : ∀ {α : Type} (f : TcbData → α), (∀ d : TcbData, f d.stateless = f d) →
      f (k'.data k'.current) = f (k.data k.current) := fun f hf => by
    rw [h.current]
    exact h.restated.field f hf k.current
  have hp : k'.cur.prio = k.cur.prio := hcur TcbData.prio fun _ => rfl
  have hrt : k'.cur.realTime = k.cur.realTime := hcur TcbData.realTime fun _ => rfl
  have hdl : k'.cur.tskDeadline = k.cur.tskDeadline := hcur TcbData.tskDeadline fun _ => rfl
  rintro t ht ⟨h0, hlt⟩
  rw [h.current] at h0
  rw [hrt, hdl, h.restated.tskDeadline] at hlt
  obtain ⟨c, hc⟩ := hs t ((h.released t).mp ht) ⟨h0, hlt⟩
  refine ⟨c, hp.trans hc.prio, fun e => hc.realTime (hrt.symm.trans e), fun e e0 u hu => ?_⟩
  rw [hdl, h.restated.tskDeadline]
  exact hc.first (hrt.symm.trans e) e0 u ((h.released u).mp hu)

/-- **The timer interrupt**: the tasks that are due are released, then the choice is made. -/
theorem Lined.timer0IrqHandler (h : Lined k L) (hs : L none ≠ []) (tc pc : Nat)
    (hseat : k.Seated fun t => t ∈ L (some 0) ∨
      (t ∈ L none ∧ Kernel.due { k with timerCount := Kernel.correctRound tc pc } t = true))
    (hready : k.cur.realTime = true → ∃ i, L (some i) ≠ []) :
    ∃ k₁ L₁ k' L', k.timer0IrqHandler tc pc = .ok k' ∧
      Releases { k with timerCount := Kernel.correctRound tc pc } k₁ L L₁ ∧
      Chooses k₁ k' L₁ L' := by
  obtain ⟨k₁, L₁, h1, h2⟩ := h.releases hs tc pc
  have hrt : k₁.cur.realTime = k.cur.realTime := by
    have := h2.restated.realTime k.current
    unfold Kernel.cur
    rw [h2.current]
    exact this
  -- the tick count has no part in it
  have hseat₀ : Kernel.Seated { k with timerCount := Kernel.correctRound tc pc } _ :=
    hseat.frame rfl rfl
  obtain ⟨k', L', h3, h4⟩ := h2.lined.preempt (h2.seated hseat₀) fun hc => by
    obtain ⟨i, hi⟩ := hready (hrt.symm.trans hc)
    by_cases e : i = 0
    · subst e
      obtain ⟨u, hu⟩ := List.exists_mem_of_ne_nil _ hi
      exact ⟨0, List.ne_nil_of_mem ((h2.released u).mpr (Or.inl hu))⟩
    · exact ⟨i, (h2.others i e).symm ▸ hi⟩
  exact ⟨k₁, L₁, k', L', h1.trans h3, h2, h4⟩

/-- A real-time task that runs with nobody ready is no case the handler provides for. -/
theorem Lined.preempt_alone (h : Lined k L) (hrt : k.cur.realTime = true)
    (hL : ∀ i, L (some i) = []) : k.preempt ≠ .ok k' := by
  have h0 := h.ne_null_of_realTime hrt
  have hrun : k.cur.state = .running := h.running
  unfold Kernel.preempt Kernel.preemptRealTime
  rw [if_neg h0, if_pos hrt, hrun]
  simp only [reduceCtorEq, or_self, if_false, if_true]
  rcases h.listed.scheduler with ⟨hs, -⟩ | ⟨i, t, l, -, hi, -⟩
  · have hnull : (k.tcb tidNull).realTime = false := h.null.2
    have hprio : (k.tcb tidNull).prio = prioNull := h.null.1
    rw [hs]
    simp only [hnull]
    unfold Kernel.putBack
    rw [hprio]
    intro e
    cases e
  · rw [hL i] at hi
    cases hi

/-- What an interrupt that returns has done. -/
theorem Lineup.ticks (h : Lineup k L) {tc pc : Nat} (hk : k.timer0IrqHandler tc pc = .ok k') :
    ∃ k₁ L₁ L', Releases { k with timerCount := Kernel.correctRound tc pc } k₁ L L₁ ∧
      Chooses k₁ k' L₁ L' := by
  have hs : L none ≠ [] := fun e => by
    have hh : (k.queue .suspend).head = (L none).head? := h.listed.head none
    rw [e, List.head?_nil] at hh
    unfold Kernel.timer0IrqHandler at hk
    simp only [hh] at hk
    cases hk
  obtain ⟨k₁, L₁, h1, h2⟩ := h.releases hs tc pc
  have hp : k₁.preempt = .ok k' := h1.symm.trans hk
  have hready : k₁.cur.realTime = true → ∃ i, L₁ (some i) ≠ [] := fun hrt => by
    by_contra hno
    exact h2.lined.preempt_alone hrt (fun i => not_not.mp fun hi => hno ⟨i, hi⟩) hp
  have hl₁ := h2.lineup h
  obtain ⟨k'', L', h3, h4⟩ := hl₁.toLined.preempt (hl₁.seated _) hready
  obtain rfl : k'' = k' := Except.ok.inj (h3.symm.trans hp)
  exact ⟨k₁, L₁, L', h2, h4⟩

/-! ## 7. A job ends -/

/-- **What `k_rt_tsk_susp` leaves**: its caller is suspended, with its new deadline, and the first
    of the ready tasks runs. -/
structure Suspends (k k' : Kernel) (L L' : Lines) : Prop where
  lineup : Lineup k' L'
  restated : Restated (k.modifyTcb k.current (TcbData.postpone k)) k'
  timerCount : k'.timerCount = k.timerCount
  suspended : ∀ t, t ∈ L' none ↔ t = k.current ∨ t ∈ L none
  places : ∀ t, t ≠ tidNull → ((t = k'.current ∨ L'.Has t) ↔ (t = k.current ∨ L.Has t))
  sorted : Sorted k L → Sorted k' L'
  earliest : Sorted k L → ∀ t ∈ L (some 0), (k.data k'.current).realTime = true ∧
    (k.data k'.current).tskDeadline ≤ (k.data t).tskDeadline
  others : k'.current ≠ k.current

/-- The caller of `k_rt_tsk_susp` stands in `suspend_tsk` with its new deadline; nobody runs yet. -/
structure Sleeps (k k₁ : Kernel) (L L₁ : Lines) : Prop where
  listed : Listed k₁ L₁ fun _ => True
  restated : Restated (k.modifyTcb k.current (TcbData.postpone k)) k₁
  timerCount : k₁.timerCount = k.timerCount
  ready : ∀ i : Fin 5, L₁ (some i) = L (some i)
  suspended : ∀ u, u ∈ L₁ none ↔ u = k.current ∨ u ∈ L none
  has : ∀ u, Lines.Has L₁ u ↔ u = k.current ∨ L.Has u

theorem Lineup.sleeps (h : Lineup k L) (hrt : k.cur.realTime = true) :
    ∃ k₁ L₁, k.kRtTskSusp = .ok (k₁.runScheduled, rtxOk) ∧ Sleeps k k₁ L L₁ := by
  obtain ⟨c, hc⟩ := h.current (h.ne_null_of_realTime hrt)
  obtain rfl : c = 0 := hc.realTime.mp hrt
  set k₂ : Kernel := (k.setTaskState k.current .suspended).modifyTcb k.current
    (TcbData.postpone k) with hk₂
  have hr₂ : Restated (k.modifyTcb k.current (TcbData.postpone k)) k₂ := by
    intro u
    rw [hk₂, Kernel.data_modifyTcb, Kernel.data_modifyTcb, Kernel.data_setTaskState]
    by_cases e : u = k.current
    · subst e
      simp only [Function.update_self]
      rfl
    · simp only [Function.update_of_ne e]
  have hprio : (k₂.data k.current).prio = prioRt := by
    rw [hk₂, Kernel.data_modifyTcb, Function.update_self, Kernel.data_setTaskState,
      Function.update_self]
    exact hc.prio
  have hl₂ : Listed k₂ L k.Loose := (h.listed.setTaskState _ _).modifyTcb _ _
  have hl₂' : Listed k₂ L fun u => True ∨ u = k.current := hl₂.mono fun _ _ => Or.inl trivial
  obtain ⟨s, z, h1, -, h2, h3⟩ := hl₂'.pushTail h.held (fun _ => hprio) none
  refine ⟨{ k₂ with toTasks := s }, _, ?_, h2, fun u => (h3.stateless u).trans (hr₂ u), rfl,
    fun i => Function.update_of_ne (by simp) _ _, fun u => ?_, fun u => ?_⟩
  · unfold Kernel.kRtTskSusp
    rw [if_neg (by rw [hrt]; simp)]
    exact bind_of_ok h1
  · rw [Function.update_self, Tasks.mem_queued]
  · exact Lines.has_update fun v => Tasks.mem_queued

namespace Sleeps

variable {L₁ : Lines} (h : Lineup k L) (hs : Sleeps k k₁ L L₁)
include h hs

omit h in
/-- The other tasks differ at most in their state. -/
theorem stateless (hu : u ≠ k.current) : (k₁.data u).stateless = (k.data u).stateless := by
  rw [hs.restated u, k.data_modifyTcb, Function.update_of_ne hu]

omit h in
theorem tskDeadline (hu : u ≠ k.current) : (k₁.data u).tskDeadline = (k.data u).tskDeadline := by
  have hd := congrArg TcbData.tskDeadline (hs.stateless hu)
  exact hd

theorem null (hrt : k.cur.realTime = true) :
    (k₁.data tidNull).prio = prioNull ∧ (k₁.data tidNull).realTime = false := by
  have hd := hs.stateless (h.ne_null_of_realTime hrt).symm
  exact ⟨(congrArg TcbData.prio hd).trans h.null.1, (congrArg TcbData.realTime hd).trans h.null.2⟩

/-- Everybody is in the queue of its priority. -/
theorem member (hrt : k.cur.realTime = true) {q : Option (Fin 5)} (hu : u ∈ L₁ q) :
    (k₁.data u).Ranked (q.getD 0) := by
  have hold : ∀ q, u ∈ L q → (k₁.data u).Ranked (q.getD 0) := fun q hu => by
    have hd := hs.stateless (h.ne_current hu)
    have hr := h.member q u hu
    exact ⟨(congrArg TcbData.prio hd).trans hr.prio,
      (congrArg (fun d : TcbData => d.realTime = true) hd).to_iff.trans hr.realTime⟩
  cases q with
  | some i =>
      rw [hs.ready] at hu
      exact hold (some i) hu
  | none =>
      rcases (hs.suspended u).mp hu with rfl | hu
      · obtain ⟨c, hc⟩ := h.current (h.ne_null_of_realTime hrt)
        obtain rfl : c = 0 := hc.realTime.mp hrt
        refine hs.restated.ranked.mpr ?_
        rw [Kernel.data_modifyTcb, Function.update_self]
        exact ⟨hc.prio, hc.realTime⟩
      · exact hold none hu

theorem sorted (hso : Sorted k L) : Sorted k₁ L₁ := by
  unfold Sorted at hso ⊢
  rw [hs.ready]
  refine hso.imp_of_mem fun ha hb hab => ?_
  rw [hs.tskDeadline (h.ne_current ha), hs.tskDeadline (h.ne_current hb)]
  exact hab

/-- The scheduler decides who runs. -/
theorem suspends (hrt : k.cur.realTime = true) : ∃ L', Suspends k k₁.runScheduled L L' := by
  have h0 := h.ne_null_of_realTime hrt
  have hnull := hs.null h hrt
  unfold Kernel.runScheduled
  rcases hs.listed.scheduler with ⟨hsch, hL⟩ | ⟨i, t, l, s, hL, hj, hsch, h1, h2, h3⟩
  · -- nobody is ready: the null task runs
    rw [hsch]
    have hr := hs.restated.trans (restated_switchTo k₁ tidNull)
    refine ⟨L₁, Lineup.switchTo (hs.listed.mono fun u _ => ?_) (fun q hq => ?_)
      (fun q u hu => hs.member h hrt hu) (absurd rfl) hnull, hr, hs.timerCount, hs.suspended,
      fun u hu => ?_, fun hso => ?_, fun _ u hu => ?_, h0.symm⟩
    · exact (em (u = tidNull)).symm.imp_left fun e => e
    · exact not_ranked_null hnull.1 _ (hs.member h hrt hq)
    · change (u = tidNull ∨ _) ↔ _
      rw [hs.has, or_iff_right hu]
    · exact (sorted_congr (restated_switchTo k₁ tidNull).tskDeadline).mpr (hs.sorted h hso)
    · rw [← hs.ready, hL] at hu
      exact absurd hu List.not_mem_nil
  · rw [hsch]
    have hLk : L (some i) = t :: l := (hs.ready i).symm.trans hL
    have hmem : t ∈ L (some i) := hLk ▸ List.mem_cons_self
    set k₂ : Kernel := { k₁ with toTasks := s } with hk₂
    have hr₂ : Restated k₁ k₂ := h2.stateless
    obtain ⟨h4, h5, h6⟩ := hs.listed.taken hL
    have hrank : ∀ {q u}, u ∈ L₁ q → (k₂.data u).Ranked (q.getD 0) := fun hu =>
      hr₂.ranked.mpr (hs.member h hrt hu)
    have htop : (k₂.data t).Ranked i := hrank (q := some i) (hL ▸ List.mem_cons_self)
    refine ⟨_, Lineup.switchTo ((h1.only h3).mono fun _ => Or.inl) h5
      (fun q u hu => hrank (h4 q u hu)) (fun _ => ⟨i, htop⟩) (hr₂.null hnull),
      (hs.restated.trans hr₂).trans (restated_switchTo k₂ t), hs.timerCount, fun u => ?_,
      fun u _ => ?_, fun hso => ?_, fun hso u hu => ?_, h.ne_current hmem⟩
    · rw [Function.update_of_ne (by simp)]
      exact hs.suspended u
    · rw [← hs.has, Lines.has_tail hL]
      exact Iff.rfl
    · exact (sorted_congr (hr₂.trans (restated_switchTo k₂ t)).tskDeadline).mpr
        (h6 (hs.sorted h hso))
    · obtain ⟨h7, h8⟩ := h.first_realTime hLk (fun j hj' => (hs.ready j).symm.trans (hj j hj')) hu
      exact ⟨h7, h8 hso⟩

end Sleeps

theorem Lineup.kRtTskSusp (h : Lineup k L) (hrt : k.cur.realTime = true) :
    ∃ k' L', k.kRtTskSusp = .ok (k', rtxOk) ∧ Suspends k k' L L' := by
  obtain ⟨k₁, L₁, hk, hs⟩ := h.sleeps hrt
  obtain ⟨L', hS⟩ := hs.suspends h hrt
  exact ⟨_, L', hk, hS⟩

/-- The deadlines behind a call of `k_rt_tsk_susp`. -/
theorem Suspends.tskDeadline (h : Suspends k k' L L') (t : Tid) :
    (k'.data t).tskDeadline = if t = k.current then
      k.nextDeadline (k.data t).tskDeadline (k.data t).tskPeriod else (k.data t).tskDeadline := by
  rw [h.restated.tskDeadline, k.data_modifyTcb, Function.update_apply]
  split
  next e =>
    subst e
    rfl
  · rfl

theorem Suspends.realTime (h : Suspends k k' L L') (t : Tid) :
    (k'.data t).realTime = (k.data t).realTime := by
  rw [h.restated.realTime, k.data_modifyTcb, Function.update_apply]
  split
  next e =>
    subst e
    rfl
  · rfl

theorem Suspends.nthExecution (h : Suspends k k' L L') (t : Tid) :
    (k'.data t).nthExecution = (k.data t).nthExecution := by
  rw [h.restated.field TcbData.nthExecution (fun _ => rfl), k.data_modifyTcb, Function.update_apply]
  split
  next e =>
    subst e
    rfl
  · rfl

end Rtx
