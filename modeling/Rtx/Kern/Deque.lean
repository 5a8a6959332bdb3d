/-
  File:      Rtx/Kern/Deque.lean
  Subject:   Runs of the queue operations: the queues as lists.

  A run takes any number of TCBs and queues, all unlinked, through `push_head`, `push_tail`,
  `pop_head` and `pop_task`, next to the lists they stand for. An operation is `Correct` when it
  returns and the queues are the new lists. With TCBs pushed only while they are in no queue, a run
  is correct exactly when every step of it is `Sane` (`run_correct`): `push_head` on an empty queue
  does not reset a stale link, and `pop_task` runs over the end of a queue of one.
-/
import Rtx.Kern.QueueSpec
import Rtx.Lib.Outcome
import Rtx.Lib.Runs

set_option linter.unusedSectionVars false

namespace Rtx

open Lib

/-- An operation on a queue. -/
inductive QueueOp (τ κ : Type) where
  | pushHead (t : τ) (q : κ)
  | pushTail (t : τ) (q : κ)
  | popHead (q : κ)
  | popTask (t : τ) (q : κ)

/-- What an operation returns, if anybody reads it. -/
inductive QueueReply (τ : Type) where
  | none
  | task (v : Option τ)
  | result (r : Int)

namespace Tasks

variable {τ κ : Type} [DecidableEq τ] [DecidableEq κ]

/-! ## 1. Operations on queues and on lists -/

/-- The operation on the queues. -/
def exec [Fintype τ] (s : Tasks τ κ) : QueueOp τ κ → Except Fault (Tasks τ κ × QueueReply τ)
  | .pushHead t q => .ok (s.pushHead t q, .none)
  | .pushTail t q => do
      let s ← s.pushTail t q
      return (s, .none)
  | .popHead q =>
      let (s, v) := s.popHead q
      .ok (s, .task v)
  | .popTask t q => do
      let (s, r) ← s.popTask t q
      return (s, .result r)

/-- The operation on the lists. -/
def apply (L : κ → List τ) : QueueOp τ κ → κ → List τ
  | .pushHead t q => Function.update L q (t :: L q)
  | .pushTail t q => Function.update L q (L q ++ [t])
  | .popHead q => Function.update L q (L q).tail
  | .popTask t q => Function.update L q ((L q).erase t)

/-- What the operation is to return. -/
def Fits (L : κ → List τ) : QueueOp τ κ → QueueReply τ → Prop
  | .popHead q, r => r = .task (L q).head?
  | .popTask t q, r => t ∉ L q → ∃ n, r = .result n ∧ n ≤ 0
  | .pushHead .., _ | .pushTail .., _ => True

/-- The queues are the lists: the chain along `next` from HEAD is the list, ends with NULL at TAIL
    and is counted, and no TCB is in two of them. -/
structure Shows (s : Tasks τ κ) (L : κ → List τ) : Prop where
  head : ∀ q, (s.queue q).head = (L q).head?
  tail : ∀ q, (s.queue q).tail = (L q).getLast?
  size : ∀ q, (s.queue q).currentSize = (L q).length
  next : ∀ q, (L q).IsChain fun a b => (s.tcb a).next = some b
  last : ∀ q, ∀ a ∈ (L q).getLast?, (s.tcb a).next = none
  once : ∀ q, (L q).Nodup
  one : ∀ q q' t, t ∈ L q → t ∈ L q' → q = q'

/-- The queues and the lists after an operation that returns. -/
def step [Fintype τ] (x : Tasks τ κ × (κ → List τ)) (op : QueueOp τ κ) :
    Option (Tasks τ κ × (κ → List τ)) :=
  match x.1.exec op with
  | .ok (s, _) => some (s, apply x.2 op)
  | .error _ => none

/-- A TCB is pushed only while it is in no queue, and on the tail only if it is not real-time. -/
def Proper (x : Tasks τ κ × (κ → List τ)) : QueueOp τ κ → Prop
  | .pushHead t _ => ∀ q, t ∉ x.2 q
  | .pushTail t _ => (∀ q, t ∉ x.2 q) ∧ (x.1.tcb t).realTime = false
  | .popHead _ | .popTask .. => True

/-- The operation returns what it should, and leaves the queues that it should. -/
def Correct [Fintype τ] (x : Tasks τ κ × (κ → List τ)) (op : QueueOp τ κ) : Prop :=
  match x.1.exec op with
  | .ok (s, r) => s.Shows (apply x.2 op) ∧ Fits x.2 op r
  | .error _ => False

/-- A TCB is pushed on the head of an empty queue only with a NULL link, and `pop_task` is not used
    on a queue of one other TCB. -/
def Sane (x : Tasks τ κ × (κ → List τ)) : QueueOp τ κ → Prop
  | .pushHead t q => (x.1.queue q).head = none → (x.1.tcb t).next = none
  | .popTask t q => (x.1.queue q).head = none ∨ (x.1.queue q).head ≠ (x.1.queue q).tail ∨
      (x.1.queue q).head = some t
  | .pushTail .. | .popHead _ => True

/-- All queues are empty, and all links NULL. -/
structure Unlinked (s : Tasks τ κ) : Prop where
  queue : ∀ q, s.queue q = ⟨none, none, 0⟩
  next : ∀ t, (s.tcb t).next = none
  prev : ∀ t, (s.tcb t).prev = none

instance [Fintype κ] (x : Tasks τ κ × (κ → List τ)) (op : QueueOp τ κ) :
    Decidable (Proper x op) := by
  cases op <;> unfold Proper <;> infer_instance

instance (x : Tasks τ κ × (κ → List τ)) (op : QueueOp τ κ) : Decidable (Sane x op) := by
  cases op <;> unfold Sane <;> infer_instance

/-! ## 2. One operation -/

variable {s s' : Tasks τ κ} {L : κ → List τ} {X : τ → Prop} {q : κ} {t : τ}

/-- The lists of a state, whatever links the TCBs in no queue have. -/
abbrev Lists (s : Tasks τ κ) (L : κ → List τ) : Prop := s.Rep L fun _ => True

theorem Rep.lists (h : s.Rep L X) : s.Lists L := h.mono fun _ _ => trivial

theorem Rep.shows (h : s.Rep L X) : s.Shows L where
  head q := (h.chain q).head
  tail q := (h.chain q).tail
  size q := (h.chain q).size
  next q := (h.chain q).linked.1.imp fun _ _ hab => hab.1
  last q := (h.chain q).linked.2
  once q := (h.chain q).nodup
  one := h.disj

theorem Unlinked.lists (h : s.Unlinked) : s.Lists fun _ => [] where
  chain q := by
    have hq := h.queue q
    exact ⟨by rw [hq]; rfl, by rw [hq]; rfl, by rw [hq]; rfl, linked_nil, List.nodup_nil⟩
  disj _ _ _ ht := absurd ht List.not_mem_nil
  off _ _ hx := absurd trivial hx

theorem Rep.head_none (h : s.Rep L X) : (s.queue q).head = none ↔ L q = [] := by
  rw [(h.chain q).head, List.head?_eq_none_iff]

/-- `push_head` on an empty queue leaves the TCB its successor. -/
theorem pushHead_empty (h : (s.queue q).head = none) :
    ((s.pushHead t q).tcb t).next = (s.tcb t).next := by
  unfold Tasks.pushHead
  simp only [h]
  rw [setPrev_next, (setState_ite _ t .ready _).1.next]
  rfl

section Step

variable [Fintype τ] (hτ : Fintype.card τ < 2 ^ 32 - 1) (h : s.Lists L)
include hτ h

/-- A sane `push_head` puts the TCB in front; any other makes a list that does not end. -/
theorem Rep.pushHead_correct (ht : ∀ q, t ∉ L q) :
    Correct (s, L) (.pushHead t q) ↔ Sane (s, L) (.pushHead t q) := by
  constructor
  · rintro ⟨hs, -⟩ hh
    -- the new TCB is the last of its list
    have hL := h.head_none.mp hh
    have hlast := hs.last q t (by simp [apply, hL])
    exact (pushHead_empty hh).symm.trans hlast
  · intro hs
    exact ⟨(h.pushHead hτ ht fun hL => hs (h.head_none.mpr hL)).1.shows, trivial⟩

/-- `pop_task` of a TCB that is in the queue takes it out. -/
theorem Rep.popTask_mem (ht : t ∈ L q) : ∃ s', s.popTask t q = .ok (s', 1) ∧
    s'.Lists (Function.update L q ((L q).erase t)) := by
  obtain ⟨l₁, l₂, hL⟩ := List.append_of_mem ht
  have hnd := (h.chain q).nodup
  obtain ⟨s', h1, h2, -⟩ := h.popTask hτ hL
  have ht₁ : t ∉ l₁ := fun hm =>
    (List.nodup_append.mp (hL ▸ hnd)).2.2 t hm t List.mem_cons_self rfl
  rw [hL, List.erase_append_right _ ht₁, List.erase_cons_head]
  exact ⟨s', h1, h2.lists⟩

omit hτ in
/-- `pop_task` is sane unless the queue has one member, another TCB. -/
theorem Rep.popTask_sane : Sane (s, L) (.popTask t q) ↔ ((L q).length = 1 → t ∈ L q) := by
  have hc := h.chain q
  have hnd := hc.nodup
  change (_ ∨ _ ∨ _) ↔ _
  rw [hc.head, hc.tail]
  cases hL : L q with
  | nil => simp
  | cons a l =>
      rw [hL] at hnd
      cases l with
      | nil => simp [eq_comm]
      | cons b l =>
          refine iff_of_true (Or.inr (Or.inl fun e => ?_)) (by simp)
          have hm : a ∈ b :: l := by
            rw [List.getLast?_cons_cons] at e
            exact List.mem_of_getLast? e.symm
          exact (List.nodup_cons.mp hnd).1 hm

/-- **A proper operation is correct exactly when it is sane**, and then leaves the new lists. -/
theorem Rep.correct_iff {op : QueueOp τ κ} (hp : Proper (s, L) op) :
    (Correct (s, L) op ↔ Sane (s, L) op) ∧
      (Sane (s, L) op → ∃ s', step (s, L) op = some (s', apply L op) ∧ s'.Lists (apply L op)) := by
  cases op with
  | pushHead t q =>
      refine ⟨h.pushHead_correct hτ hp, fun hs => ⟨_, rfl, ?_⟩⟩
      exact (h.pushHead hτ hp fun hL => hs (h.head_none.mpr hL)).1
  | pushTail t q =>
      obtain ⟨s', z, h1, -, h2, -⟩ := (h.mono fun _ _ => Or.inl trivial).pushTail hτ hp.1
        (fun hrt => absurd (hp.2.symm.trans hrt) (by simp))
      have hq : s.queued t (L q) = L q ++ [t] := by
        rw [queued, if_neg]
        rw [show (s.data t).realTime = false from hp.2]
        simp
      rw [hq] at h2
      have hx : s.exec (.pushTail t q : QueueOp τ κ) = .ok (s', .none) := by
        rw [exec, h1]
        rfl
      refine ⟨iff_of_true ?_ trivial, fun _ => ⟨s', ?_, h2⟩⟩
      · unfold Correct
        rw [hx]
        exact ⟨h2.shows, trivial⟩
      · unfold step
        rw [hx]
  | popHead q =>
      have hout : (s.popHead q).2 = (L q).head? ∧ (s.popHead q).1.Lists (apply L (.popHead q)) := by
        cases hL : L q with
        | nil =>
            have hh := h.head_none.mpr hL
            have e : apply L (.popHead q) = L := by
              rw [apply, hL, List.tail_nil, ← hL, Function.update_eq_self]
            unfold Tasks.popHead
            rw [hh, e]
            exact ⟨rfl, h⟩
        | cons a l =>
            obtain ⟨h1, h2, -⟩ := h.popHead hτ hL
            refine ⟨h1, ?_⟩
            rw [apply, hL]
            exact h2
      refine ⟨iff_of_true ⟨hout.2.shows, ?_⟩ trivial, fun _ => ⟨_, rfl, hout.2⟩⟩
      exact congrArg QueueReply.task hout.1
  | popTask t q =>
      by_cases ht : t ∈ L q
      · obtain ⟨s', h1, h2⟩ := h.popTask_mem hτ ht
        have hx : s.exec (.popTask t q : QueueOp τ κ) = .ok (s', .result 1) := by
          rw [exec, h1]
          rfl
        refine ⟨iff_of_true ?_ (h.popTask_sane.mpr fun _ => ht), fun _ => ⟨s', ?_, h2⟩⟩
        · unfold Correct
          rw [hx]
          exact ⟨h2.shows, fun hn => absurd ht hn⟩
        · unfold step
          rw [hx]
      · have he : apply L (.popTask t q) = L := by
          rw [apply, List.erase_of_not_mem ht, Function.update_eq_self]
        have hsane := h.popTask_sane (t := t) (q := q)
        rcases h.popTask_absent ht with ⟨r, h1, hr, hlen⟩ | ⟨h1, hlen⟩
        · have hx : s.exec (.popTask t q : QueueOp τ κ) = .ok (s, .result r) := by
            rw [exec, h1]
            rfl
          refine ⟨iff_of_true ?_ (hsane.mpr fun e => absurd e hlen), fun _ => ⟨s, ?_, by rw [he]; exact h⟩⟩
          · unfold Correct
            rw [hx]
            refine ⟨?_, fun _ => ⟨r, rfl, hr⟩⟩
            rw [he]
            exact h.shows
          · unfold step
            rw [hx]
        · have hx : s.exec (.popTask t q : QueueOp τ κ) = .error .nullTcb := by
            rw [exec, h1]
            rfl
          have hns : ¬ Sane (s, L) (.popTask t q) := fun hs => ht (hsane.mp hs hlen)
          refine ⟨iff_of_false ?_ hns, fun hs => absurd hs hns⟩
          unfold Correct
          rw [hx]
          exact id

end Step

/-! ## 3. Runs -/

/-- **The queues are deques** in every run from unlinked TCBs, of whatever number: every operation
    is correct, if and only if every one is sane. -/
theorem run_correct [Fintype τ] (hτ : Fintype.card τ < 2 ^ 32 - 1) (h : s.Unlinked)
    (ops : List (QueueOp τ κ)) (hp : Allowed step Proper (s, fun _ => []) ops) :
    Allowed step Correct (s, fun _ => []) ops ↔ Allowed step Sane (s, fun _ => []) ops := by
  refine allowed_iff (fun x : Tasks τ κ × (κ → List τ) => x.1.Lists x.2) (fun x op hx hop => ?_)
    h.lists hp
  obtain ⟨h1, h2⟩ := hx.correct_iff hτ hop
  refine ⟨h1, fun hs x' hx' => ?_⟩
  obtain ⟨s', h3, h4⟩ := h2 hs
  obtain rfl := Option.some.inj (h3.symm.trans hx')
  exact h4

/-- Zeroed TCBs and empty queues. -/
def zeroed : Tasks τ κ where
  tcb := fun _ => {
    msp := 0, priv := 0, tid := 0, prio := 0, state := .dormant, ptask := 0, psp := 0
    uStackSize := 0, pspBase := none, messageHeader := none, tskPeriod := 0, tskDeadline := 0
    realTime := false, nthExecution := 0, prev := none, next := none }
  queue := fun _ => ⟨none, none, 0⟩
  errno := .zero

theorem unlinked_zeroed : (zeroed : Tasks τ κ).Unlinked :=
  ⟨fun _ => rfl, fun _ => rfl, fun _ => rfl⟩

theorem run_correct_two : Allowed step Correct
    ((zeroed, fun _ => []) : Tasks (Fin 4) (Fin 2) × (Fin 2 → List (Fin 4)))
    [.pushTail 0 0, .pushTail 1 0, .pushHead 2 0, .popTask 0 0, .popTask 3 0, .popTask 1 0,
      .pushHead 1 1, .popHead 0, .popHead 0] :=
  (run_correct (by decide) unlinked_zeroed _ (by decide +kernel)).mpr (by decide +kernel)

/-- **A stale link joins two queues.** The TCB taken from the middle of three keeps its successor,
    and becomes the head of another queue with it. -/
theorem stale_link : ¬ ∀ ops : List (QueueOp (Fin 3) (Fin 2)),
    Allowed step Proper (zeroed, fun _ => []) ops →
      Allowed step Correct (zeroed, fun _ => []) ops := by
  intro h
  obtain ⟨x, hx, hnext⟩ : ∃ x : Tasks (Fin 3) (Fin 2) × (Fin 2 → List (Fin 3)),
      Lib.run step (zeroed, fun _ => [])
        [.pushTail 0 0, .pushTail 1 0, .pushTail 2 0, .popTask 1 0] = some x ∧
      x.2 1 = [] ∧ ((x.1.pushHead 1 1).tcb 1).next = some 2 :=
    ⟨_, rfl, by decide +kernel, by decide +kernel⟩
  have hc : Correct x (.pushHead 1 1) := (h ([.pushTail 0 0, .pushTail 1 0, .pushTail 2 0,
    .popTask 1 0] ++ [.pushHead 1 1]) (by decide +kernel)).last hx
  have hlast := hc.1.last 1 1 (by simp [apply, hnext.1])
  rw [hnext.2] at hlast
  cases hlast

end Tasks

end Rtx
