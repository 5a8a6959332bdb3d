/-
  File:      Rtx/Kern/Insertion.lean
  Subject:   Insertion by deadlines: `push_tail` of a real-time task.

  The walk of `push_tail` may stop at the head, between two tasks or run off the end, and links
  the task differently in the three cases. On a queue that is a list, in the order of the
  deadlines, the task goes in front of the first one whose deadline is not before its own
  (`deadline_insertion`), whatever its own links and the other queues are.
-/
import Rtx.Kern.Deque
import Rtx.Kern.View

namespace Rtx

namespace Tasks

variable {τ κ : Type} [DecidableEq τ] [DecidableEq κ] {s : Tasks τ κ} {q : κ} {t : τ} {l : List τ}

/-- The tasks of a list in the order of their deadlines. -/
def InOrder (s : Tasks τ κ) (l : List τ) : Prop :=
  l.Pairwise fun a b => (s.data a).tskDeadline ≤ (s.data b).tskDeadline

omit [DecidableEq τ] [DecidableEq κ] in
theorem inOrder_congr {s' : Tasks τ κ} (hd : ∀ u, (s'.data u).tskDeadline = (s.data u).tskDeadline) :
    s'.InOrder l ↔ s.InOrder l := by
  unfold InOrder
  simp only [hd]

omit [DecidableEq τ] [DecidableEq κ] in
theorem InOrder.queued (hs : s.InOrder l) (hrt : (s.data t).realTime = true) :
    s.InOrder (s.queued t l) := by
  have htotal : Std.Total fun a b : τ => (s.data a).tskDeadline ≤ (s.data b).tskDeadline :=
    ⟨fun a b => le_total _ _⟩
  have htrans : IsTrans τ fun a b => (s.data a).tskDeadline ≤ (s.data b).tskDeadline :=
    ⟨fun _ _ _ => le_trans⟩
  rw [Tasks.queued, if_pos hrt]
  exact List.Pairwise.orderedInsert t _ hs

omit [DecidableEq τ] [DecidableEq κ] in
/-- The place of a real-time task: behind the tasks that are due before it. -/
theorem queued_split (hrt : (s.data t).realTime = true) : ∃ l₁ l₂,
    l = l₁ ++ l₂ ∧ s.queued t l = l₁ ++ t :: l₂ ∧
      (∀ a ∈ l₁, (s.data a).tskDeadline < (s.data t).tskDeadline) ∧
      ∀ b ∈ l₂.head?, (s.data t).tskDeadline ≤ (s.data b).tskDeadline := by
  set late := fun b => decide ¬(s.data t).tskDeadline ≤ (s.data b).tskDeadline with hlate
  refine ⟨l.takeWhile late, l.dropWhile late, List.takeWhile_append_dropWhile.symm, ?_, ?_, ?_⟩
  · rw [Tasks.queued, if_pos hrt, List.orderedInsert_eq_take_drop]
  · intro a ha
    have := List.all_eq_true.mp List.all_takeWhile a ha
    simpa [hlate] using this
  · intro b hb
    have hne := List.head?_dropWhile_not late l
    rw [Option.mem_def.mp hb] at hne
    simpa [hlate] using hne

omit [DecidableEq κ] in
/-- Only the state of a TCB is marked. -/
theorem marked_deadline (s : Tasks τ κ) (t z u : τ) :
    (s.marked t z u).tskDeadline = (s.data u).tskDeadline := by
  unfold marked
  split
  · rw [Function.update_apply]
    split
    next hu => rw [hu]
    next => rfl
  · rfl

/-- **Insertion by deadlines**: `push_tail` links a real-time task into a sorted queue in front of
    the first task whose deadline is not before its own, and leaves the queue sorted. -/
theorem deadline_insertion [Fintype τ] (hτ : Fintype.card τ < 2 ^ 32 - 1) (h : s.Chain q l)
    (hs : s.InOrder l) (ht : t ∉ l) (hrt : (s.data t).realTime = true)
    (hp : (s.data t).prio = prioRt) : ∃ s' l₁ l₂, s.pushTail t q = .ok s' ∧
      l = l₁ ++ l₂ ∧ (∀ a ∈ l₁, (s.data a).tskDeadline < (s.data t).tskDeadline) ∧
      (∀ b ∈ l₂.head?, (s.data t).tskDeadline ≤ (s.data b).tskDeadline) ∧
      s'.Chain q (l₁ ++ t :: l₂) ∧ s'.InOrder (l₁ ++ t :: l₂) ∧
      ∀ u, (s'.data u).tskDeadline = (s.data u).tskDeadline := by
  obtain ⟨s', z, hok, -, hchain, -, hdata⟩ := h.pushTail hτ ht fun _ => hp
  obtain ⟨l₁, l₂, hl, hq, hbefore, hbehind⟩ := queued_split (l := l) hrt
  have hd : ∀ u, (s'.data u).tskDeadline = (s.data u).tskDeadline := by
    intro u
    rw [hdata]
    exact s.marked_deadline t z u
  have hsorted : s'.InOrder (s.queued t l) := (inOrder_congr hd).mpr (hs.queued hrt)
  rw [hq] at hchain hsorted
  exact ⟨s', l₁, l₂, hok, hl, hbefore, hbehind, hchain, hsorted, hd⟩

/-- The tasks 0 and 2 wait for their deadlines 10 and 30; the task 1 has the deadline 20 and links
    that lead to itself. -/
def twoWaiting : Tasks (Fin 3) Unit where
  tcb t := { (zeroed : Tasks (Fin 3) Unit).tcb t with
    prio := prioRt, realTime := true, state := .suspended, tskDeadline := 10 * (t.val + 1)
    prev := if t = 2 then some 0 else some 1
    next := if t = 0 then some 2 else if t = 1 then some 1 else none }
  queue := fun _ => ⟨some 0, some 2, 2⟩
  errno := .zero

theorem deadline_insertion_between : ∃ s' l₁ l₂, twoWaiting.pushTail 1 () = .ok s' ∧
    [0, 2] = l₁ ++ l₂ ∧
    (∀ a ∈ l₁, (twoWaiting.data a).tskDeadline < (twoWaiting.data 1).tskDeadline) ∧
    (∀ b ∈ l₂.head?, (twoWaiting.data 1).tskDeadline ≤ (twoWaiting.data b).tskDeadline) ∧
    s'.Chain () (l₁ ++ 1 :: l₂) ∧ s'.InOrder (l₁ ++ 1 :: l₂) ∧
    ∀ u, (s'.data u).tskDeadline = (twoWaiting.data u).tskDeadline :=
  deadline_insertion (by simp) ⟨rfl, rfl, rfl, by decide, by decide⟩
    (show List.Pairwise _ _ by decide) (by decide) rfl rfl

end Tasks

end Rtx
