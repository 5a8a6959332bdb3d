/-
  File:      Rtx/Kern/QueueSpec.lean
  Subject:   What the queue operations do to the lists the queues hold.

  `Tasks.Rep s L X`: queue `q` is the doubly linked list `L q`, no TCB is in two queues, and a TCB
  in no queue has no successor, except those of `X`. Under it each operation of priority_queue.c
  is the list operation its name says, with one flaw: a TCB that `pop_task` takes from the inside
  of a list keeps its links (it is then in `X`), and `push_head` on an empty queue trusts them.
-/
import Mathlib.Data.Fintype.List
import Mathlib.Data.List.Sort
import Rtx.Kern.Queue
import Rtx.Lib.Linked

set_option linter.unusedSectionVars false

namespace Rtx

open Lib

namespace Tasks

variable {τ κ : Type} [DecidableEq τ] [DecidableEq κ]

/-! ## 1. What the elementary writes change -/

/-- All fields of the TCBs but their links. -/
def data (s : Tasks τ κ) : τ → TcbData := fun t => (s.tcb t).toTcbData

section Writes

variable (s : Tasks τ κ) (t u : τ) (q q' : κ) (v : Option τ) (n : Nat) (f : TcbData → TcbData)

theorem setNext_next : ((s.setNext t v).tcb u).next = if u = t then v else (s.tcb u).next := by
  simp only [setNext, Function.update_apply]; split <;> rfl
@[simp] theorem setNext_prev : ((s.setNext t v).tcb u).prev = (s.tcb u).prev := by
  simp only [setNext, Function.update_apply]; split <;> simp_all
@[simp] theorem setNext_data : (s.setNext t v).data = s.data := by
  funext u
  simp only [data, setNext, Function.update_apply]; split <;> simp_all
@[simp] theorem setNext_queue : (s.setNext t v).queue = s.queue := rfl
@[simp] theorem setNext_errno : (s.setNext t v).errno = s.errno := rfl

@[simp] theorem setPrev_next : ((s.setPrev t v).tcb u).next = (s.tcb u).next := by
  simp only [setPrev, Function.update_apply]; split <;> simp_all
theorem setPrev_prev : ((s.setPrev t v).tcb u).prev = if u = t then v else (s.tcb u).prev := by
  simp only [setPrev, Function.update_apply]; split <;> rfl
@[simp] theorem setPrev_data : (s.setPrev t v).data = s.data := by
  funext u
  simp only [data, setPrev, Function.update_apply]; split <;> simp_all
@[simp] theorem setPrev_queue : (s.setPrev t v).queue = s.queue := rfl
@[simp] theorem setPrev_errno : (s.setPrev t v).errno = s.errno := rfl

@[simp] theorem modify_next : ((s.modify t f).tcb u).next = (s.tcb u).next := by
  simp only [modify, Function.update_apply]; split <;> simp_all
@[simp] theorem modify_prev : ((s.modify t f).tcb u).prev = (s.tcb u).prev := by
  simp only [modify, Function.update_apply]; split <;> simp_all
@[simp] theorem modify_data : (s.modify t f).data = Function.update s.data t (f (s.data t)) := by
  funext u
  simp only [data, modify, Function.update_apply]; split <;> rfl
@[simp] theorem modify_queue : (s.modify t f).queue = s.queue := rfl
@[simp] theorem modify_errno : (s.modify t f).errno = s.errno := rfl

theorem modify_modify (g : TcbData → TcbData) :
    (s.modify t f).modify t g = s.modify t (g ∘ f) := by
  simp [modify]

@[simp] theorem setHead_tcb : (s.setHead q v).tcb = s.tcb := rfl
@[simp] theorem setTail_tcb : (s.setTail q v).tcb = s.tcb := rfl
@[simp] theorem setSize_tcb : (s.setSize q n).tcb = s.tcb := rfl
@[simp] theorem setHead_data : (s.setHead q v).data = s.data := rfl
@[simp] theorem setTail_data : (s.setTail q v).data = s.data := rfl
@[simp] theorem setSize_data : (s.setSize q n).data = s.data := rfl
@[simp] theorem setHead_errno : (s.setHead q v).errno = s.errno := rfl
@[simp] theorem setTail_errno : (s.setTail q v).errno = s.errno := rfl
@[simp] theorem setSize_errno : (s.setSize q n).errno = s.errno := rfl
theorem setHead_queue :
    (s.setHead q v).queue q' = if q' = q then { s.queue q with head := v } else s.queue q' := by
  simp only [setHead, setQueue, Function.update_apply]
theorem setTail_queue :
    (s.setTail q v).queue q' = if q' = q then { s.queue q with tail := v } else s.queue q' := by
  simp only [setTail, setQueue, Function.update_apply]
theorem setSize_queue :
    (s.setSize q n).queue q' =
      if q' = q then { s.queue q with currentSize := n } else s.queue q' := by
  simp only [setSize, setQueue, Function.update_apply]

end Writes

theorem state_eq (s : Tasks τ κ) (t : τ) : (s.tcb t).state = (s.data t).state := rfl

/-- The state `s'` is `s` but for fields of TCBs other than the links. -/
structure SameLinks (s s' : Tasks τ κ) : Prop where
  queue : s'.queue = s.queue
  next : ∀ u, (s'.tcb u).next = (s.tcb u).next
  prev : ∀ u, (s'.tcb u).prev = (s.tcb u).prev
  errno : s'.errno = s.errno

theorem sameLinks_modify (s : Tasks τ κ) (t : τ) (f : TcbData → TcbData) :
    s.SameLinks (s.modify t f) := ⟨rfl, by simp, by simp, rfl⟩

/-- Setting a state under a condition. -/
theorem setState_ite (s : Tasks τ κ) (t : τ) (v : TaskState) (c : Prop) [Decidable c] :
    s.SameLinks (if c then s.setState t v else s) ∧
      (if c then s.setState t v else s).data =
        if c then Function.update s.data t { s.data t with state := v } else s.data := by
  by_cases h : c
  · rw [if_pos h, if_pos h]
    exact ⟨sameLinks_modify s t _, modify_data s t _⟩
  · rw [if_neg h, if_neg h]
    exact ⟨⟨rfl, fun _ => rfl, fun _ => rfl, rfl⟩, rfl⟩

/-! ## 2. The lists of a state -/

/-- The queue `q` is the doubly linked list `l`. -/
structure Chain (s : Tasks τ κ) (q : κ) (l : List τ) : Prop where
  head : (s.queue q).head = l.head?
  tail : (s.queue q).tail = l.getLast?
  size : (s.queue q).currentSize = l.length
  linked : Linked (fun t => (s.tcb t).next) (fun t => (s.tcb t).prev) l
  nodup : l.Nodup

/-- **The queues hold the lists `L`.** No TCB is in two of them, and those in none, `X` apart,
    have no successor. -/
structure Rep (s : Tasks τ κ) (L : κ → List τ) (X : τ → Prop) : Prop where
  chain : ∀ q, s.Chain q (L q)
  disj : ∀ q q' t, t ∈ L q → t ∈ L q' → q = q'
  off : ∀ t, (∀ q, t ∉ L q) → ¬ X t → (s.tcb t).next = none

instance Chain.decidable (s : Tasks τ κ) (q : κ) (l : List τ) : Decidable (s.Chain q l) :=
  decidable_of_iff ((s.queue q).head = l.head? ∧ (s.queue q).tail = l.getLast? ∧
    (s.queue q).currentSize = l.length ∧
    Linked (fun t => (s.tcb t).next) (fun t => (s.tcb t).prev) l ∧ l.Nodup)
    ⟨fun ⟨h1, h2, h3, h4, h5⟩ => ⟨h1, h2, h3, h4, h5⟩,
      fun h => ⟨h.head, h.tail, h.size, h.linked, h.nodup⟩⟩

instance Rep.decidable [Fintype τ] [Fintype κ] (s : Tasks τ κ) (L : κ → List τ) (X : τ → Prop)
    [DecidablePred X] : Decidable (s.Rep L X) :=
  decidable_of_iff ((∀ q, s.Chain q (L q)) ∧ (∀ q q' t, t ∈ L q → t ∈ L q' → q = q') ∧
    ∀ t, (∀ q, t ∉ L q) → ¬ X t → (s.tcb t).next = none)
    ⟨fun ⟨h1, h2, h3⟩ => ⟨h1, h2, h3⟩, fun h => ⟨h.chain, h.disj, h.off⟩⟩

variable {s s' : Tasks τ κ} {L : κ → List τ} {X X' : τ → Prop} {q : κ} {t u : τ} {l : List τ}

theorem Chain.queue_eq (h : s.Chain q l) :
    s.queue q = ⟨l.head?, l.getLast?, l.length⟩ := by
  rw [← h.head, ← h.tail, ← h.size]

theorem Rep.mono (h : s.Rep L X) (hX : ∀ t, X t → X' t) : s.Rep L X' :=
  ⟨h.chain, h.disj, fun t ht hx => h.off t ht fun hx' => hx (hX t hx')⟩

/-- A TCB without a successor need not be in `X`. -/
theorem Rep.tighten (h : s.Rep L fun u => X u ∨ u = t) (hn : (s.tcb t).next = none) :
    s.Rep L X := by
  refine ⟨h.chain, h.disj, fun u hu hx => ?_⟩
  by_cases e : u = t
  · exact e ▸ hn
  · exact h.off u hu fun ho => ho.elim hx e

/-- Writing other fields than the links changes no list. -/
theorem Rep.congr (h : s.Rep L X) (hs : s.SameLinks s') : s'.Rep L X := by
  obtain ⟨hq, hn, hp, -⟩ := hs
  refine ⟨fun q => ?_, h.disj, fun u hu hx => (hn u).trans (h.off u hu hx)⟩
  obtain ⟨h1, h2, h3, h4, h5⟩ := h.chain q
  rw [← hq] at h1 h2 h3
  exact ⟨h1, h2, h3, h4.congr (fun u _ => hn u) (fun u _ => hp u), h5⟩

theorem Rep.modify (h : s.Rep L X) (t : τ) (f : TcbData → TcbData) : (s.modify t f).Rep L X :=
  h.congr (sameLinks_modify s t f)

/-- **An edit of one queue.** The links of `t` and of the members of `q` may change, those of no
    other TCB; then the other lists stay what they are. -/
theorem Rep.edit (h : s.Rep L X) {l' : List τ} (ht : ∀ q', q' ≠ q → t ∉ L q')
    (hq : ∀ q', q' ≠ q → s'.queue q' = s.queue q')
    (hlink : ∀ u, u ∉ L q → u ≠ t →
      (s'.tcb u).next = (s.tcb u).next ∧ (s'.tcb u).prev = (s.tcb u).prev)
    (hc : s'.Chain q l') (hsub : ∀ u ∈ l', u ∈ L q ∨ u = t)
    (hX : ∀ u, u ∉ L q → u ≠ t → X u → X' u)
    (hoff : ∀ u, u ∈ L q ∨ u = t → u ∉ l' → ¬ X' u → (s'.tcb u).next = none) :
    s'.Rep (Function.update L q l') X' := by
  -- a member of another queue is neither `t` nor a member of `q`
  have hother : ∀ q', q' ≠ q → ∀ u ∈ L q', u ∉ L q ∧ u ≠ t := fun q' hq' u hu =>
    ⟨fun hu' => hq' (h.disj q' q u hu hu'), fun e => ht q' hq' (e ▸ hu)⟩
  refine ⟨fun q' => ?_, fun q₁ q₂ u h1 h2 => ?_, fun u hu hx => ?_⟩
  · by_cases e : q' = q
    · subst e
      rw [Function.update_self]
      exact hc
    · rw [Function.update_of_ne e]
      obtain ⟨h1, h2, h3, h4, h5⟩ := h.chain q'
      rw [← hq q' e] at h1 h2 h3
      exact ⟨h1, h2, h3, h4.congr
        (fun u hu => (hlink u (hother q' e u hu).1 (hother q' e u hu).2).1)
        (fun u hu => (hlink u (hother q' e u (List.mem_of_mem_tail hu)).1
          (hother q' e u (List.mem_of_mem_tail hu)).2).2), h5⟩
  · rw [Function.update_apply] at h1 h2
    by_cases e1 : q₁ = q
    · by_cases e2 : q₂ = q
      · rw [e1, e2]
      · rw [if_pos e1] at h1
        rw [if_neg e2] at h2
        obtain ⟨h3, h4⟩ := hother q₂ e2 u h2
        exact absurd (hsub u h1) (not_or.mpr ⟨h3, h4⟩)
    · rw [if_neg e1] at h1
      by_cases e2 : q₂ = q
      · rw [if_pos e2] at h2
        obtain ⟨h3, h4⟩ := hother q₁ e1 u h1
        exact absurd (hsub u h2) (not_or.mpr ⟨h3, h4⟩)
      · rw [if_neg e2] at h2
        exact h.disj q₁ q₂ u h1 h2
  · have hul : u ∉ l' := by
      have := hu q
      rwa [Function.update_self] at this
    by_cases hin : u ∈ L q ∨ u = t
    · exact hoff u hin hul hx
    · obtain ⟨h1, h2⟩ := not_or.mp hin
      rw [(hlink u h1 h2).1]
      refine h.off u (fun q' => ?_) fun hx' => hx (hX u h1 h2 hx')
      by_cases e : q' = q
      · exact e ▸ h1
      · have := hu q'
        rwa [Function.update_of_ne e] at this

/-- The number of a duplicate-free list of TCBs fits the size counter. -/
theorem length_lt [Fintype τ] (hτ : Fintype.card τ < 2 ^ 32 - 1) (hd : l.Nodup) :
    l.length + 1 < 2 ^ 32 := by
  have := hd.length_le_card
  omega

/-! ## 3. `push_head` -/

/-- **`push_head` puts the TCB in front.** Into an empty queue it does so only when the TCB has
    no successor: it does not reset the link. -/
theorem Rep.pushHead [Fintype τ] (hτ : Fintype.card τ < 2 ^ 32 - 1) (h : s.Rep L X)
    (ht : ∀ q', t ∉ L q') (hn : L q = [] → (s.tcb t).next = none) :
    (s.pushHead t q).Rep (Function.update L q (t :: L q)) X ∧
      (s.pushHead t q).data = Function.update s.data t
        { s.data t with
          state := if (s.data t).state = .suspended then .suspended else .ready } ∧
      (s.pushHead t q).errno = s.errno := by
  obtain ⟨h1, h2, h3, h4, h5⟩ := h.chain q
  have hlen := length_lt hτ h5
  have htq := ht q
  -- the state before `t` becomes READY: linked in front of the old list
  obtain ⟨s₁, hs₁, hq, hqo, hne, hpr, hda, her⟩ : ∃ s₁ : Tasks τ κ,
      s.pushHead t q = ((if (s₁.tcb t).state ≠ .suspended then s₁.setState t .ready
        else s₁).setPrev t none) ∧
      s₁.queue q = ⟨some t, (t :: L q).getLast?, (L q).length + 1⟩ ∧
      (∀ q', q' ≠ q → s₁.queue q' = s.queue q') ∧
      (∀ u, (s₁.tcb u).next = if u = t then (L q).head? else (s.tcb u).next) ∧
      (∀ u, u ≠ t → (s₁.tcb u).prev =
        if some u = (L q).head? then some t else (s.tcb u).prev) ∧
      s₁.data = s.data ∧ s₁.errno = s.errno := by
    cases hL : L q with
    | nil =>
        rw [hL] at h1 h3
        refine ⟨((s.setHead q (some t)).setTail q (some t)).grow q, ?_, ?_, fun q' hq' => ?_,
          fun u => ?_, fun u hu => by simp [grow], rfl, rfl⟩
        · simp only [Tasks.pushHead, h1, List.head?_nil]
        · simp [grow, setSize_queue, setTail_queue, setHead_queue, h3, add32]
        · simp [grow, setSize_queue, setTail_queue, setHead_queue, hq']
        · by_cases e : u = t
          · subst e
            simpa [grow] using hn hL
          · simp [grow, e]
    | cons a l =>
        rw [hL] at h1 h2 h3 hlen htq
        have hta : t ≠ a := fun e => htq (e ▸ List.mem_cons_self)
        refine ⟨((((s.setNext t (some a)).setPrev a (some t)).setHead q (some t)).grow q), ?_, ?_,
          fun q' hq' => ?_, fun u => ?_, fun u hu => ?_, by simp [grow], rfl⟩
        · simp only [Tasks.pushHead, h1, List.head?_cons]
        · have hadd : add32 (l.length + 1) 1 = l.length + 1 + 1 := add32_eq hlen
          simp [grow, setSize_queue, setHead_queue, h2, h3, hadd]
        · simp [grow, setSize_queue, setHead_queue, hq']
        · simp [grow, setNext_next]
        · simp [grow, setPrev_prev]
  obtain ⟨⟨hq2, hn2, hp2, he2⟩, hd2⟩ := setState_ite s₁ t .ready ((s₁.tcb t).state ≠ .suspended)
  rw [hs₁]
  generalize (if (s₁.tcb t).state ≠ .suspended then s₁.setState t .ready else s₁) = s₂ at *
  have hnext : ∀ u, u ≠ t → ((s₂.setPrev t none).tcb u).next = (s.tcb u).next := fun u hu => by
    rw [setPrev_next, hn2, hne, if_neg hu]
  have hprev : ∀ u, u ≠ t → some u ≠ (L q).head? →
      ((s₂.setPrev t none).tcb u).prev = (s.tcb u).prev := fun u hu hh => by
    rw [setPrev_prev, if_neg hu, hp2, hpr u hu, if_neg hh]
  refine ⟨h.edit (fun q' _ => ht q') (fun q' hq' => ?_) (fun u hu hut => ⟨hnext u hut, ?_⟩) ?_
    (fun u hu => (List.mem_cons.mp hu).symm) (fun u _ _ hx => hx) (fun u hu hul => ?_), ?_, ?_⟩
  · rw [setPrev_queue, hq2, hqo q' hq']
  · exact hprev u hut fun e => hu (List.mem_of_mem_head? e.symm)
  · refine ⟨?_, ?_, ?_, ?_, List.nodup_cons.mpr ⟨htq, h5⟩⟩
    · rw [setPrev_queue, hq2, hq, List.head?_cons]
    · rw [setPrev_queue, hq2, hq]
    · rw [setPrev_queue, hq2, hq, List.length_cons]
    · refine h4.push_front ?_ (fun z hz => hnext z fun e => htq (e ▸ hz)) (fun z hz => ?_)
        (fun z hz => ?_)
      · rw [setPrev_next, hn2, hne, if_pos rfl]
      · have hzt : z ≠ t := fun e => htq (e ▸ List.mem_of_mem_head? hz)
        rw [setPrev_prev, if_neg hzt, hp2, hpr z hzt, if_pos hz.symm]
      · have hzt : z ≠ t := fun e => htq (e ▸ List.mem_of_mem_tail hz)
        exact hprev z hzt (ne_head_of_mem_tail h5 hz)
  · exact absurd (List.mem_cons.mpr hu.symm) hul
  · rw [setPrev_data, hd2, state_eq, hda]
    by_cases hs : (s.data t).state = .suspended
    · rw [if_neg (by simp [hs]), if_pos hs, ← hs]
      exact (Function.update_eq_self t s.data).symm
    · rw [if_pos hs, if_neg hs]
  · rw [setPrev_errno, he2, her]

/-! ## 4. `pop_head`, `pop_tail` and `pop_task` -/

/-- **`pop_head` takes the first TCB** and resets its links. -/
theorem Rep.popHead [Fintype τ] (hτ : Fintype.card τ < 2 ^ 32 - 1) (h : s.Rep L X)
    (hL : L q = t :: l) :
    (s.popHead q).2 = some t ∧ (s.popHead q).1.Rep (Function.update L q l) X ∧
      (s.popHead q).1.data = Function.update s.data t
        { s.data t with state := if (s.data t).state = .blkSend then .ready else .running } ∧
      (s.popHead q).1.errno = s.errno ∧ ((s.popHead q).1.tcb t).next = none := by
  obtain ⟨h1, h2, h3, h4, h5⟩ := h.chain q
  have hlen := length_lt hτ h5
  rw [hL] at h1 h2 h3 h4 h5 hlen
  have hnx : (s.tcb t).next = l.head? := h4.next_head
  obtain ⟨htl, hnd⟩ := List.nodup_cons.mp h5
  -- the state before the new state of `t` is set
  obtain ⟨s₁, hs₁, hq, hqo, hne, hpr, hda, her⟩ : ∃ s₁ : Tasks τ κ,
      s.popHead q = (s₁.setState t (if (s₁.tcb t).state = .blkSend then .ready else .running),
        some t) ∧
      s₁.queue q = ⟨l.head?, l.getLast?, l.length⟩ ∧
      (∀ q', q' ≠ q → s₁.queue q' = s.queue q') ∧
      (∀ u, (s₁.tcb u).next = if u = t then none else (s.tcb u).next) ∧
      (∀ u, u ≠ t → some u ≠ l.head? → (s₁.tcb u).prev = (s.tcb u).prev) ∧
      s₁.data = s.data ∧ s₁.errno = s.errno := by
    have hsub : sub32 (l.length + 1) 1 = l.length :=
      sub32_eq (Nat.le_add_left 1 _) (by rw [List.length_cons] at hlen; omega)
    cases hl : l with
    | nil =>
        rw [hl] at hnx h2 h3 hsub
        refine ⟨((((s.setHead q none).setTail q none).shrink q).setNext t none).setPrev t none,
          ?_, ?_, fun q' hq' => ?_, fun u => ?_, fun u hu _ => ?_, by simp [shrink], by
            simp [shrink]⟩
        · simp only [Tasks.popHead, h1, List.head?_cons, hnx, List.head?_nil]
        · simp [shrink, setSize_queue, setTail_queue, setHead_queue, h3] at hsub ⊢
          rfl
        · simp [shrink, setSize_queue, setTail_queue, setHead_queue, hq']
        · simp [shrink, setNext_next]
        · simp [shrink, setPrev_prev, hu]
    | cons a m =>
        rw [hl] at hnx h2 h3 hsub
        refine ⟨((((s.setHead q (some a)).setPrev a none).shrink q).setNext t none).setPrev t none,
          ?_, ?_, fun q' hq' => ?_, fun u => ?_, fun u hu hh => ?_, by simp [shrink], by
            simp [shrink]⟩
        · simp only [Tasks.popHead, h1, List.head?_cons, hnx]
        · simp [shrink, setSize_queue, setHead_queue, h2, h3] at hsub ⊢
          exact hsub
        · simp [shrink, setSize_queue, setHead_queue, hq']
        · simp [shrink, setNext_next]
        · have hua : u ≠ a := fun e => hh (by simp [e])
          simp [shrink, setPrev_prev, hu, hua]
  rw [hs₁]
  have hnext : ∀ v u, u ≠ t → ((s₁.setState t v).tcb u).next = (s.tcb u).next := fun v u hu => by
    rw [setState, modify_next, hne, if_neg hu]
  have hprev : ∀ v u, u ≠ t → some u ≠ l.head? →
      ((s₁.setState t v).tcb u).prev = (s.tcb u).prev := fun v u hu hh => by
    rw [setState, modify_prev, hpr u hu hh]
  have hother : ∀ q', q' ≠ q → t ∉ L q' := fun q' hq' ht =>
    hq' (h.disj q' q t ht (hL ▸ List.mem_cons_self))
  refine ⟨rfl, h.edit hother (fun q' hq' => ?_) (fun u hu hut => ⟨hnext _ u hut, ?_⟩) ?_
    (fun u hu => Or.inl (hL ▸ List.mem_cons_of_mem _ hu)) (fun u _ _ hx => hx)
    (fun u hu hul _ => ?_), ?_, ?_, ?_⟩
  · rw [setState, modify_queue, hqo q' hq']
  · refine hprev _ u hut fun e => hu ?_
    rw [hL]
    exact List.mem_cons_of_mem _ (List.mem_of_mem_head? e.symm)
  · refine ⟨?_, ?_, ?_, ?_, hnd⟩
    · rw [setState, modify_queue, hq]
    · rw [setState, modify_queue, hq]
    · rw [setState, modify_queue, hq]
    · refine h4.tail.congr (fun z hz => hnext _ z fun e => htl (e ▸ hz)) (fun z hz => ?_)
      exact hprev _ z (fun e => htl (e ▸ List.mem_of_mem_tail hz)) (ne_head_of_mem_tail hnd hz)
  · have hut : u = t := by
      rw [hL, List.mem_cons] at hu
      tauto
    rw [hut, setState, modify_next, hne, if_pos rfl]
  · rw [setState, modify_data, hda, state_eq, hda]
  · rw [setState, modify_errno, her]
  · rw [setState, modify_next, hne, if_pos rfl]

/-- `pop_tail` takes the last TCB of a list of several and resets its links. -/
theorem Rep.popTail [Fintype τ] (hτ : Fintype.card τ < 2 ^ 32 - 1) (h : s.Rep L X) {p : τ}
    (hL : L q = l ++ [p, t]) :
    (s.popTail q).1.Rep (Function.update L q (l ++ [p])) X ∧ (s.popTail q).1.data = s.data ∧
      (s.popTail q).1.errno = s.errno ∧ ((s.popTail q).1.tcb t).next = none := by
  obtain ⟨h1, h2, h3, h4, h5⟩ := h.chain q
  have hlen := length_lt hτ h5
  rw [hL] at h1 h2 h3 h4 h5 hlen
  have hpv : (s.tcb t).prev = some p := h4.adjacent.2
  have htl : (l ++ [p, t]).getLast? = some t := by simp
  have hlen2 : (l ++ [p, t]).length = l.length + 1 + 1 := by simp
  have hnd : (l ++ [p]).Nodup ∧ t ∉ l ++ [p] := by
    rw [show l ++ [p, t] = l ++ [p] ++ [t] by simp, List.nodup_append] at h5
    exact ⟨h5.1, fun ht => h5.2.2 t ht t (by simp) rfl⟩
  have hpt : p ≠ t := fun e => hnd.2 (e ▸ by simp)
  have hsub : sub32 (l.length + 1 + 1) 1 = l.length + 1 :=
    sub32_eq (Nat.le_add_left 1 _) (by rw [hlen2] at hlen; omega)
  have hs' : s.popTail q = (((((s.setTail q (some p)).setNext p none).shrink q).setNext t
      none).setPrev t none, some t) := by
    simp only [Tasks.popTail, h2, htl, h3, hlen2, hpv]
    rw [if_neg (by omega)]
  rw [hs']
  have hother : ∀ q', q' ≠ q → t ∉ L q' := fun q' hq' ht =>
    hq' (h.disj q' q t ht (hL ▸ by simp))
  refine ⟨h.edit hother (fun q' hq' => ?_) (fun u hu hut => ?_) ?_ (fun u hu => Or.inl ?_)
    (fun u _ _ hx => hx) (fun u hu hul _ => ?_), by simp [shrink], by simp [shrink],
    by simp [shrink, setNext_next]⟩
  · simp [shrink, setSize_queue, setTail_queue, hq']
  · have hup : u ≠ p := fun e => hu (hL ▸ e ▸ by simp)
    simp [shrink, setNext_next, setPrev_prev, hut, hup]
  · refine ⟨?_, ?_, ?_, ?_, hnd.1⟩
    · simp only [shrink, setPrev_queue, setNext_queue, setSize_queue, setTail_queue, if_true, h1]
      cases l <;> rfl
    · simp [shrink, setSize_queue, setTail_queue]
    · simp [shrink, setSize_queue, setTail_queue, h3, hsub]
    · refine h4.remove_last ?_ (fun z hz => ?_) (fun z hz => ?_)
      · simp [shrink, setNext_next, hpt]
      · have hzt : z ≠ t := fun e => hnd.2 (e ▸ by simp [hz])
        have hzp : z ≠ p := fun e => (List.nodup_append.mp hnd.1).2.2 z hz p (by simp) e
        simp [shrink, setNext_next, hzt, hzp]
      · have hzt : z ≠ t := fun e => hnd.2 (e ▸ List.mem_of_mem_tail hz)
        simp [shrink, setPrev_prev, hzt]
  · rw [hL]
    simp only [List.mem_append, List.mem_cons, List.not_mem_nil, or_false] at hu ⊢
    exact hu.imp_right Or.inl
  · have hut : u = t := by
      rw [hL] at hu
      simp only [List.mem_append, List.mem_cons, List.not_mem_nil, or_false] at hu hul
      rcases hu with (hu | hu | hu) | hu
      · exact absurd (Or.inl hu) hul
      · exact absurd (Or.inr hu) hul
      · exact hu
      · exact hu
    simp [shrink, setNext_next, hut]

/-- The loop of `pop_task` walks along the list to the task, and unlinks it. -/
theorem popTaskLoop_found {as rest : List τ} {x y z : τ} (hq : (s.queue q).tail = some z)
    (hl : Linked (fun t => (s.tcb t).next) (fun t => (s.tcb t).prev) (as ++ t :: y :: rest))
    (hp : (s.tcb t).prev = some x) (hta : t ∉ as) (hza : z ∉ as) (hzt : z ≠ t) (fuel : Nat) :
    s.popTaskLoop t q (as.length + 1 + fuel) (as ++ t :: y :: rest).head? =
      .ok (((s.setNext x (some y)).setPrev y (some x)).shrink q, 1) := by
  induction as with
  | nil =>
      have hn : (s.tcb t).next = some y := hl.next_head
      rw [List.length_nil, Nat.zero_add, Nat.add_comm, List.nil_append, List.head?_cons]
      unfold popTaskLoop
      rw [hq, if_neg (fun e => hzt (Option.some.inj e).symm)]
      simp only [if_true, hp, hn]
  | cons a as ih =>
      have hn : (s.tcb a).next = (as ++ t :: y :: rest).head? := hl.next_head
      simp only [List.mem_cons, not_or] at hta hza
      rw [List.length_cons, show as.length + 1 + 1 + fuel = (as.length + 1 + fuel) + 1 by omega,
        List.cons_append, List.head?_cons]
      unfold popTaskLoop
      rw [hq, if_neg (fun e => hza.1 (Option.some.inj e).symm)]
      simp only [if_neg (Ne.symm hta.1), hn]
      exact ih hl.tail hta.2 hza.2

/-- The loop ends before the tail when the task is not met. -/
theorem popTaskLoop_absent {as : List τ} {z : τ} (hq : (s.queue q).tail = some z)
    (hl : Linked (fun t => (s.tcb t).next) (fun t => (s.tcb t).prev) (as ++ [z]))
    (hta : t ∉ as) (hza : z ∉ as) (fuel : Nat) :
    s.popTaskLoop t q (as.length + 1 + fuel) (as ++ [z]).head? = .ok (s, 0) := by
  induction as with
  | nil =>
      rw [List.length_nil, Nat.zero_add, Nat.add_comm, List.nil_append, List.head?_cons]
      unfold popTaskLoop
      rw [hq, if_pos rfl]
  | cons a as ih =>
      have hn : (s.tcb a).next = (as ++ [z]).head? := hl.next_head
      simp only [List.mem_cons, not_or] at hta hza
      rw [List.length_cons, show as.length + 1 + 1 + fuel = (as.length + 1 + fuel) + 1 by omega,
        List.cons_append, List.head?_cons]
      unfold popTaskLoop
      rw [hq, if_neg (fun e => hza.1 (Option.some.inj e).symm)]
      simp only [if_neg (Ne.symm hta.1), hn]
      exact ih hl.tail hta.2 hza.2

/-- `pop_task` leaves a queue alone in which the task is not; but if the queue has one member it
    runs over the end of it. -/
theorem Rep.popTask_absent [Fintype τ] (h : s.Rep L X) (ht : t ∉ L q) :
    (∃ r, s.popTask t q = .ok (s, r) ∧ r ≤ 0 ∧ (L q).length ≠ 1) ∨
      (s.popTask t q = .error .nullTcb ∧ (L q).length = 1) := by
  obtain ⟨h1, h2, h3, h4, h5⟩ := h.chain q
  unfold Tasks.popTask
  rcases List.eq_nil_or_concat' (L q) with e | ⟨as, z, e⟩
  · rw [e] at h1
    simp only [h1, List.head?_nil]
    exact Or.inl ⟨-1, rfl, by decide, by rw [e]; simp⟩
  · rw [e] at h1 h2 h4 h5 ht
    have hz : (as ++ [z]).getLast? = some z := by simp
    have hza : z ∉ as := fun hm => (List.nodup_append.mp h5).2.2 z hm z (by simp) rfl
    have htz : z ≠ t := fun e => ht (e ▸ by simp)
    have hlen := h5.length_le_card
    rw [hz] at h2
    cases as with
    | nil =>
        have hn : (s.tcb z).next = none := h4.next_head
        simp only [h1, h2, List.nil_append, List.head?_cons, if_neg htz, hn]
        refine Or.inr ⟨?_, by rw [e]; rfl⟩
        unfold popTaskLoop
        simp only [h2, reduceCtorEq, if_false]
    | cons a as =>
        have hta : a ≠ t := fun e => ht (e ▸ by simp)
        have hn : (s.tcb a).next = (as ++ [z]).head? := h4.next_head
        simp only [h1, h2, List.cons_append, List.head?_cons, if_neg htz, if_neg hta, hn]
        refine Or.inl ⟨0, ?_, by decide, by rw [e]; simp⟩
        rw [List.cons_append, List.length_cons, List.length_append] at hlen
        obtain ⟨f, hf⟩ : ∃ f, Fintype.card τ + 2 = as.length + 1 + f :=
          ⟨Fintype.card τ + 1 - as.length, by omega⟩
        rw [hf]
        exact popTaskLoop_absent h2 h4.tail (fun hm => ht (by simp [hm]))
          (fun hm => hza (List.mem_cons_of_mem _ hm)) f

/-- `pop_task` unlinks a task from the inside of a list, and leaves it its own links. -/
theorem Rep.popTask_inner [Fintype τ] (hτ : Fintype.card τ < 2 ^ 32 - 1) (h : s.Rep L X)
    {ms rest : List τ} {x y : τ} (hL : L q = ms ++ [x] ++ t :: y :: rest) :
    ∃ s', s.popTask t q = .ok (s', 1) ∧
      s'.Rep (Function.update L q (ms ++ [x] ++ y :: rest)) (fun u => X u ∨ u = t) ∧
      s'.errno = s.errno ∧ s'.data = s.data := by
  obtain ⟨h1, h2, h3, h4, h5⟩ := h.chain q
  have hlen := h5.length_le_card
  have hlen' := length_lt hτ h5
  rw [hL] at h1 h2 h3 h4 h5 hlen hlen'
  obtain ⟨w, ws, hw⟩ : ∃ w ws, ms ++ [x] = w :: ws := by
    cases ms with
    | nil => exact ⟨x, [], rfl⟩
    | cons w ws => exact ⟨w, ws ++ [x], rfl⟩
  have htms : t ∉ ms ++ [x] := fun hm =>
    (List.nodup_append.mp h5).2.2 t hm t List.mem_cons_self rfl
  have hwt : w ≠ t := fun e => htms (by rw [hw, e]; exact List.mem_cons_self)
  have hL' : ms ++ [x] ++ t :: y :: rest = ms ++ x :: t :: y :: rest := by simp
  obtain ⟨z, hz⟩ : ∃ z, (y :: rest).getLast? = some z := by
    rw [← Option.isSome_iff_exists]
    simp
  have hzm : z ∈ y :: rest := List.mem_of_getLast? hz
  have hzl : (ms ++ [x] ++ t :: y :: rest).getLast? = some z := by
    rw [List.getLast?_append_of_ne_nil _ (by simp), List.getLast?_cons_cons, hz]
  have hnd := h5
  rw [List.nodup_append] at hnd
  obtain ⟨hnd1, hnd2, hdis⟩ := hnd
  obtain ⟨htr, hnd3⟩ := List.nodup_cons.mp hnd2
  have hzt : z ≠ t := fun e => htr (e ▸ hzm)
  have hzms : z ∉ ms ++ [x] := fun hm =>
    hdis z hm z (List.mem_cons_of_mem _ hzm) rfl
  have hadj : (s.tcb t).prev = some x := by
    have := h4
    rw [hL'] at this
    exact this.adjacent.2
  have hother : ∀ q', q' ≠ q → t ∉ L q' := fun q' hq' ht =>
    hq' (h.disj q' q t ht (hL ▸ by simp))
  have hx' : x ∉ ms ++ y :: rest := by
    rw [List.mem_append, not_or]
    exact ⟨fun hm => (List.nodup_append.mp hnd1).2.2 x hm x (by simp) rfl,
      fun hm => hdis x (by simp) x (List.mem_cons_of_mem _ hm) rfl⟩
  have hy' : y ∉ (ms ++ [x]).tail ++ rest := by
    rw [List.mem_append, not_or]
    exact ⟨fun hm => hdis y (List.mem_of_mem_tail hm) y (by simp) rfl,
      (List.nodup_cons.mp hnd3).1⟩
  have hrun : s.popTask t q =
      .ok (((s.setNext x (some y)).setPrev y (some x)).shrink q, 1) := by
    unfold Tasks.popTask
    have hzw : z ≠ w := fun e => hzms (by rw [hw, e]; exact List.mem_cons_self)
    have h4' := h4
    rw [hw] at h1 h4' hzms htms hlen
    have hn : (s.tcb w).next = (ws ++ t :: y :: rest).head? := h4'.next_head
    have hn' : (s.tcb w).next = (ws ++ t :: y :: rest).head? := hn
    simp only [h1, h2, hw, List.cons_append, List.head?_cons]
    rw [← List.cons_append, ← hw, hzl]
    simp only [if_neg hwt, if_neg hzt, hn']
    simp only [List.cons_append, List.length_cons, List.length_append] at hlen
    obtain ⟨f, hf⟩ : ∃ f, Fintype.card τ + 2 = ws.length + 1 + f :=
      ⟨Fintype.card τ + 1 - ws.length, by omega⟩
    rw [hf]
    exact popTaskLoop_found (h2.trans hzl) h4'.tail hadj
      (fun hm => htms (List.mem_cons_of_mem _ hm))
      (fun hm => hzms (List.mem_cons_of_mem _ hm)) hzt f
  refine ⟨_, hrun, h.edit hother (fun q' hq' => ?_) (fun u hu _ => ?_) ?_ (fun u hu => ?_)
    (fun u _ _ hx => Or.inl hx) (fun u hu hul hx => ?_), by simp [shrink], by simp [shrink]⟩
  · simp [shrink, setSize_queue, hq']
  · have hux : u ≠ x := fun e => hu (hL ▸ e ▸ by simp)
    have huy : u ≠ y := fun e => hu (hL ▸ e ▸ by simp)
    simp [shrink, setNext_next, setPrev_prev, hux, huy]
  · refine ⟨?_, ?_, ?_, ?_, ?_⟩
    · simp only [shrink, setSize_queue, setPrev_queue, setNext_queue, if_true, h1]
      cases ms <;> rfl
    · simp only [shrink, setSize_queue, setPrev_queue, setNext_queue, if_true, h2, hzl]
      rw [List.getLast?_append_of_ne_nil _ (by simp), hz]
    · simp only [shrink, setSize_queue, setPrev_queue, setNext_queue, if_true, h3]
      rw [sub32_eq (by simp; omega) (by omega)]
      simp
    · rw [hL'] at h4
      rw [List.append_assoc, List.singleton_append]
      refine h4.remove_inner ?_ ?_ (fun u hu => ?_) (fun u hu => ?_)
      · simp [shrink, setNext_next]
      · simp [shrink, setPrev_prev]
      · have hux : u ≠ x := fun e => hx' (e ▸ hu)
        simp [shrink, setNext_next, hux]
      · have huy : u ≠ y := fun e => hy' (e ▸ hu)
        simp [shrink, setPrev_prev, huy]
    · exact List.nodup_append.mpr ⟨hnd1, hnd3, fun a ha b hb =>
        hdis a ha b (List.mem_cons_of_mem _ hb)⟩
  · rw [hL]
    simp only [List.mem_append, List.mem_cons] at hu ⊢
    tauto
  · rw [hL] at hu
    simp only [List.mem_append, List.mem_cons] at hu hul
    exact absurd (by tauto : u = t) fun e => hx (Or.inr e)

/-- **`pop_task` takes the task out of its list.** A task taken from the inside keeps its links;
    one taken at either end has no successor. -/
theorem Rep.popTask [Fintype τ] (hτ : Fintype.card τ < 2 ^ 32 - 1) (h : s.Rep L X)
    {l₁ l₂ : List τ} (hL : L q = l₁ ++ t :: l₂) :
    ∃ s', s.popTask t q = .ok (s', 1) ∧
      s'.Rep (Function.update L q (l₁ ++ l₂)) (fun u => X u ∨ u = t) ∧
      (l₁ = [] ∨ l₂ = [] → (s'.tcb t).next = none) ∧ s'.errno = s.errno ∧
      s'.data = if l₁ = [] then Function.update s.data t { s.data t with state := .ready }
        else s.data := by
  obtain ⟨h1, h2, h3, h4, h5⟩ := h.chain q
  have hlen := h5.length_le_card
  have hlen' := length_lt hτ h5
  rw [hL] at h1 h2 h3 h4 h5 hlen hlen'
  rcases List.eq_nil_or_concat' l₁ with rfl | ⟨ms, x, rfl⟩
  · -- at the head
    obtain ⟨h6, h7, h8, h9, h10⟩ := h.popHead hτ hL
    have hz : ∃ z, (t :: l₂).getLast? = some z := by
      rw [← Option.isSome_iff_exists]
      simp
    obtain ⟨z, hz⟩ := hz
    rw [List.nil_append] at h1 h2
    rw [hz] at h2
    refine ⟨(s.popHead q).1.setState t .ready, ?_, (h7.modify t _).mono (fun u hx => Or.inl hx),
      fun _ => ?_, h9, ?_⟩
    · unfold Tasks.popTask
      simp only [h1, h2, List.head?_cons, if_true]
    · rw [setState, modify_next, h10]
    · rw [if_pos rfl, setState, modify_data, h8]
      simp
  · have hx : ∃ w ws, ms ++ [x] = w :: ws := by
      cases ms with
      | nil => exact ⟨x, [], rfl⟩
      | cons w ws => exact ⟨w, ws ++ [x], rfl⟩
    obtain ⟨w, ws, hw⟩ := hx
    have htms : t ∉ ms ++ [x] := fun hm =>
      (List.nodup_append.mp h5).2.2 t hm t List.mem_cons_self rfl
    have hwt : w ≠ t := fun e => htms (by rw [hw, e]; exact List.mem_cons_self)
    have hne : ms ++ [x] ≠ [] := by simp
    cases l₂ with
    | nil =>
        -- at the tail
        rw [show ms ++ [x] ++ [t] = ms ++ [x, t] by simp] at hL
        obtain ⟨h6, h7, h8, h9⟩ := h.popTail hτ hL
        refine ⟨(s.popTail q).1, ?_, ?_, fun _ => h9, h8, ?_⟩
        · unfold Tasks.popTask
          have hlast : (ms ++ [x] ++ [t]).getLast? = some t := by simp
          rw [hw] at h1
          simp only [h1, h2, hlast, List.cons_append, List.head?_cons, if_neg hwt, if_true]
        · rw [List.append_nil]
          exact h6.mono fun u hx => Or.inl hx
        · rw [if_neg hne, h7]
    | cons y rest =>
        -- inside
        obtain ⟨s', h6, h7, h8, h9⟩ := h.popTask_inner hτ hL
        refine ⟨s', h6, h7, fun e => ?_, h8, ?_⟩
        · simp at e
        · rw [if_neg hne, h9]

/-! ## 5. `push_tail` -/

/-- The list `push_tail` makes of `l`: a real-time task goes in front of the first task whose
    deadline is not before its own, any other goes to the end. -/
def queued (s : Tasks τ κ) (t : τ) (l : List τ) : List τ :=
  if (s.data t).realTime then
    l.orderedInsert (fun a b => (s.data a).tskDeadline ≤ (s.data b).tskDeadline) t
  else l ++ [t]

/-- The place of a task depends on the deadlines and on its kind. -/
theorem queued_congr {s s' : Tasks τ κ} {t : τ}
    (hd : ∀ u, (s'.data u).tskDeadline = (s.data u).tskDeadline)
    (hr : (s'.data t).realTime = (s.data t).realTime) (l : List τ) :
    s'.queued t l = s.queued t l := by
  unfold queued
  simp only [hd, hr]

theorem queued_perm (s : Tasks τ κ) (t : τ) (l : List τ) : (s.queued t l).Perm (t :: l) := by
  unfold queued
  split
  · exact List.perm_orderedInsert _ t l
  · exact List.perm_append_singleton t l

@[simp] theorem mem_queued {s : Tasks τ κ} {t u : τ} {l : List τ} :
    u ∈ s.queued t l ↔ u = t ∨ u ∈ l := by
  rw [(s.queued_perm t l).mem_iff, List.mem_cons]

/-- The three places for a real-time task. -/
theorem queued_cases (s : Tasks τ κ) (t : τ) (l : List τ) (hrt : (s.data t).realTime = true) :
    let late := fun u => decide ((s.data u).tskDeadline < (s.data t).tskDeadline)
    (l.dropWhile late = [] ∧ s.queued t l = l ++ [t]) ∨
      (∃ y m, l.dropWhile late = y :: m ∧ l = y :: m ∧ s.queued t l = t :: y :: m) ∨
      ∃ k x y m, l.dropWhile late = y :: m ∧ l = k ++ x :: y :: m ∧
        s.queued t l = k ++ x :: t :: y :: m := by
  intro late
  have hq : s.queued t l = l.takeWhile late ++ t :: l.dropWhile late := by
    have : late = fun b => decide ¬(s.data t).tskDeadline ≤ (s.data b).tskDeadline := by
      funext b
      simp only [late, not_le]
    rw [queued, if_pos hrt, List.orderedInsert_eq_take_drop, this]
  have hl := List.takeWhile_append_dropWhile (p := late) (l := l)
  rw [hq]
  cases hd : l.dropWhile late with
  | nil =>
      rw [hd, List.append_nil] at hl
      exact Or.inl ⟨rfl, by rw [hl]⟩
  | cons y m =>
      rw [hd] at hl
      rcases List.eq_nil_or_concat' (l.takeWhile late) with hk | ⟨k, x, hk⟩
      · rw [hk, List.nil_append] at hl
        exact Or.inr (Or.inl ⟨y, m, rfl, hl.symm, by rw [hk, List.nil_append]⟩)
      · rw [hk] at hl
        exact Or.inr (Or.inr ⟨k, x, y, m, rfl, by rw [← hl]; simp, by rw [hk]; simp⟩)

theorem deadlineLoop_succ (s : Tasks τ κ) (t a : τ) (fuel : Nat) :
    s.deadlineLoop t (fuel + 1) a =
      if (s.data a).tskDeadline < (s.data t).tskDeadline then
        match (s.tcb a).next with
        | none => .ok none
        | some temp => s.deadlineLoop t fuel temp
      else .ok (some a) := rfl

/-- The loop of `push_tail` finds the first task whose deadline is not before that of `t`. -/
theorem deadlineLoop_spec {a : τ} (t : τ) (hl : Linked (fun t => (s.tcb t).next)
    (fun t => (s.tcb t).prev) (a :: l)) {fuel : Nat} (hf : l.length < fuel) :
    s.deadlineLoop t fuel a = .ok ((a :: l).dropWhile fun u =>
      decide ((s.data u).tskDeadline < (s.data t).tskDeadline)).head? := by
  induction l generalizing a fuel with
  | nil =>
      obtain ⟨f, rfl⟩ : ∃ f, fuel = f + 1 := ⟨fuel - 1, by omega⟩
      have hn : (s.tcb a).next = none := hl.next_head
      rw [deadlineLoop_succ, List.dropWhile_cons, hn]
      by_cases hlt : (s.data a).tskDeadline < (s.data t).tskDeadline
      · rw [if_pos hlt, if_pos (by simpa using hlt)]
        rfl
      · rw [if_neg hlt, if_neg (by simpa using hlt)]
        rfl
  | cons b l ih =>
      obtain ⟨f, rfl⟩ : ∃ f, fuel = f + 1 := ⟨fuel - 1, by omega⟩
      have hn : (s.tcb a).next = some b := hl.next_head
      rw [deadlineLoop_succ, List.dropWhile_cons, hn]
      by_cases hlt : (s.data a).tskDeadline < (s.data t).tskDeadline
      · rw [if_pos hlt, if_pos (by simpa using hlt)]
        exact ih hl.tail (by simpa using hf)
      · rw [if_neg hlt, if_neg (by simpa using hlt)]
        rfl

/-- The states of the last TCB after `push_tail` of `t`. -/
def marked (s : Tasks τ κ) (t z : τ) : τ → TcbData :=
  if (s.data t).state ≠ .blkSend ∧ (s.data t).state ≠ .suspended then
    Function.update s.data z { s.data z with state := .ready } else s.data

/-- The end of `push_tail`: the state `s₁` holds the list `l'`, which is `L q` and `t`, but for
    the count and the end of the list. -/
theorem Rep.pushTailEnd [Fintype τ] (hτ : Fintype.card τ < 2 ^ 32 - 1)
    (h : s.Rep L fun u => X u ∨ u = t) (ht : ∀ q', t ∉ L q') {s₁ : Tasks τ κ} {l' : List τ} {z : τ}
    (hperm : l'.Perm (t :: L q)) (hz : l'.getLast? = some z)
    (hq : s₁.queue q = ⟨l'.head?, some z, (L q).length⟩)
    (hqo : ∀ q', q' ≠ q → s₁.queue q' = s.queue q')
    (hlink : Linked (fun u => if u = z then none else (s₁.tcb u).next)
      (fun u => (s₁.tcb u).prev) l')
    (hfar : ∀ u, u ∉ l' → (s₁.tcb u).next = (s.tcb u).next ∧ (s₁.tcb u).prev = (s.tcb u).prev)
    (hd : s₁.data = s.data) (he : s₁.errno = s.errno) :
    (s₁.pushTailEnd t q z).Rep (Function.update L q l') X ∧
      (s₁.pushTailEnd t q z).errno = s.errno ∧
      (s₁.pushTailEnd t q z).data = s.marked t z := by
  have hlen := length_lt hτ (h.chain q).nodup
  have hmem : ∀ u, u ∈ l' ↔ u = t ∨ u ∈ L q := fun u => by rw [hperm.mem_iff, List.mem_cons]
  obtain ⟨⟨hq2, hn2, hp2, he2⟩, hd2⟩ := setState_ite ((s₁.grow q).setNext z none) z .ready
    ((((s₁.grow q).setNext z none).tcb t).state ≠ .blkSend ∧
      (((s₁.grow q).setNext z none).tcb t).state ≠ .suspended)
  unfold Tasks.pushTailEnd
  simp only
  generalize (if (((s₁.grow q).setNext z none).tcb t).state ≠ .blkSend ∧
      (((s₁.grow q).setNext z none).tcb t).state ≠ .suspended then
      ((s₁.grow q).setNext z none).setState z .ready else (s₁.grow q).setNext z none) = s₂ at *
  have hnext : ∀ u, (s₂.tcb u).next = if u = z then none else (s₁.tcb u).next := fun u => by
    rw [hn2, setNext_next]
    rfl
  have hprev : ∀ u, (s₂.tcb u).prev = (s₁.tcb u).prev := fun u => by
    rw [hp2, setNext_prev]
    rfl
  have hzl : z ∈ l' := List.mem_of_getLast? hz
  refine ⟨h.edit (fun q' _ => ht q') (fun q' hq' => ?_) (fun u hu hut => ?_) ?_
    (fun u hu => ((hmem u).mp hu).symm) (fun u hu hut hx => hx.elim id fun e => absurd e hut)
    (fun u hu hul => absurd ((hmem u).mpr hu.symm) hul), ?_, ?_⟩
  · rw [hq2, setNext_queue, grow, setSize_queue, if_neg hq', hqo q' hq']
  · have hul : u ∉ l' := fun hm => ((hmem u).mp hm).elim hut hu
    have huz : u ≠ z := fun e => hul (e ▸ hzl)
    rw [hnext, hprev, if_neg huz]
    exact hfar u hul
  · have hqq : s₂.queue q = ⟨l'.head?, some z, (L q).length + 1⟩ := by
      rw [hq2, setNext_queue, grow, setSize_queue, if_pos rfl, hq]
      simp only
      rw [add32_eq hlen]
    refine ⟨?_, ?_, ?_, ?_, hperm.nodup_iff.mpr (List.nodup_cons.mpr ⟨ht q, (h.chain q).nodup⟩)⟩
    · rw [hqq]
    · rw [hqq, hz]
    · rw [hqq, hperm.length_eq, List.length_cons]
    · exact hlink.congr (fun u _ => hnext u) (fun u _ => hprev u)
  · rw [he2, setNext_errno, grow, setSize_errno, he]
  · rw [hd2]
    simp only [state_eq, setNext_data, grow, setSize_data, hd, marked]

/-- `push_tail` at the end of a list. -/
theorem Rep.pushTail_end [Fintype τ] (hτ : Fintype.card τ < 2 ^ 32 - 1)
    (h : s.Rep L fun u => X u ∨ u = t) (ht : ∀ q', t ∉ L q') {m : List τ} {z : τ}
    (hL : L q = m ++ [z]) {s₁ : Tasks τ κ}
    (hq : s₁.queue = (s.setTail q (some t)).queue)
    (hn : ∀ u, (s₁.tcb u).next = if u = z then some t else (s.tcb u).next)
    (hp : ∀ u, (s₁.tcb u).prev = if u = t then some z else (s.tcb u).prev)
    (hd : s₁.data = s.data) (he : s₁.errno = s.errno) :
    (s₁.pushTailEnd t q t).Rep (Function.update L q (L q ++ [t])) X ∧
      (s₁.pushTailEnd t q t).errno = s.errno ∧ (s₁.pushTailEnd t q t).data = s.marked t t := by
  obtain ⟨h1, h2, h3, h4, h5⟩ := h.chain q
  have htq := ht q
  have hzL : z ∈ L q := hL ▸ by simp
  have hzt : z ≠ t := fun e => htq (e ▸ hzL)
  refine h.pushTailEnd hτ ht (List.perm_append_singleton t (L q)) (by simp) ?_ (fun q' hq' => ?_)
    ?_ (fun u hu => ?_) hd he
  · rw [hq, setTail_queue, if_pos rfl, (h.chain q).queue_eq, hL]
    cases m <;> rfl
  · rw [hq, setTail_queue, if_neg hq']
  · rw [hL] at h4 h5 htq ⊢
    rw [List.append_assoc, List.singleton_append]
    refine h4.push_back ?_ (if_pos rfl) ?_ (fun u hu => ?_) (fun u hu => ?_)
    · rw [if_neg hzt, hn, if_pos rfl]
    · rw [hp, if_pos rfl]
    · have hut : u ≠ t := fun e => htq (e ▸ List.mem_append_left _ hu)
      have huz : u ≠ z := fun e => (List.nodup_append.mp h5).2.2 u hu z (by simp) e
      rw [if_neg hut, hn, if_neg huz]
    · have hut : u ≠ t := fun e => htq (e ▸ List.mem_of_mem_tail hu)
      rw [hp, if_neg hut]
  · have hut : u ≠ t := fun e => hu (e ▸ by simp)
    have huz : u ≠ z := fun e => hu (e ▸ List.mem_append_left _ hzL)
    rw [hn, hp, if_neg hut, if_neg huz]
    exact ⟨rfl, rfl⟩

/-- `push_tail` of a real-time task in front of a list. -/
theorem Rep.pushTail_front [Fintype τ] (hτ : Fintype.card τ < 2 ^ 32 - 1)
    (h : s.Rep L fun u => X u ∨ u = t) (ht : ∀ q', t ∉ L q') {y z : τ} {m : List τ}
    (hL : L q = y :: m) (hz : (L q).getLast? = some z) :
    let s₁ := ((s.setPrev y (some t)).setNext t (some y)).setHead q (some t)
    (s₁.pushTailEnd t q z).Rep (Function.update L q (t :: L q)) X ∧
      (s₁.pushTailEnd t q z).errno = s.errno ∧ (s₁.pushTailEnd t q z).data = s.marked t z := by
  intro s₁
  obtain ⟨h1, h2, h3, h4, h5⟩ := h.chain q
  have htq := ht q
  have hzt : z ≠ t := fun e => htq (e ▸ List.mem_of_getLast? hz)
  have hyL : y ∈ L q := hL ▸ List.mem_cons_self
  refine h.pushTailEnd hτ ht (List.Perm.refl _) ?_ ?_ (fun q' hq' => ?_) ?_ (fun u hu => ?_)
    (by simp [s₁]) rfl
  · rw [hL, List.getLast?_cons_cons, ← hL, hz]
  · simp [s₁, setHead_queue, h2, h3, hz]
  · simp [s₁, setHead_queue, hq']
  · refine h4.push_front ?_ (fun u hu => ?_) (fun u hu => ?_) (fun u hu => ?_)
    · simp [s₁, Ne.symm hzt, setNext_next, hL]
    · have hut : u ≠ t := fun e => htq (e ▸ hu)
      by_cases huz : u = z
      · rw [if_pos huz, huz]
        exact ((h4.next_none_iff (List.mem_of_getLast? hz) h5).mpr hz).symm
      · simp [s₁, huz, setNext_next, hut]
    · have huy : u = y := by
        rw [hL] at hu
        simpa using hu.symm
      simp [s₁, setPrev_prev, huy]
    · have huy : u ≠ y := fun e => ne_head_of_mem_tail h5 hu (by rw [hL, e]; rfl)
      simp [s₁, setPrev_prev, huy]
  · have hut : u ≠ t := fun e => hu (e ▸ List.mem_cons_self)
    have huy : u ≠ y := fun e => hu (e ▸ List.mem_cons_of_mem _ hyL)
    simp [s₁, setNext_next, setPrev_prev, hut, huy]

/-- `push_tail` of a real-time task inside a list. -/
theorem Rep.pushTail_inner [Fintype τ] (hτ : Fintype.card τ < 2 ^ 32 - 1)
    (h : s.Rep L fun u => X u ∨ u = t) (ht : ∀ q', t ∉ L q') {k m : List τ} {x y z : τ}
    (hL : L q = k ++ x :: y :: m) (hz : (L q).getLast? = some z) :
    let s₁ := (((s.setPrev t (some x)).setNext t (some y)).setNext x (some t)).setPrev y (some t)
    (s₁.pushTailEnd t q z).Rep (Function.update L q (k ++ x :: t :: y :: m)) X ∧
      (s₁.pushTailEnd t q z).errno = s.errno ∧ (s₁.pushTailEnd t q z).data = s.marked t z := by
  intro s₁
  obtain ⟨h1, h2, h3, h4, h5⟩ := h.chain q
  have htq := ht q
  have hzt : z ≠ t := fun e => htq (e ▸ List.mem_of_getLast? hz)
  have hlast : (y :: m).getLast? = some z := by
    rw [hL, List.getLast?_append_of_ne_nil _ (by simp), List.getLast?_cons_cons] at hz
    exact hz
  have hzend : (s.tcb z).next = none := (h4.next_none_iff (List.mem_of_getLast? hz) h5).mpr hz
  rw [hL] at h4 h5 htq
  have hnd := List.nodup_append.mp h5
  have hxy := List.nodup_cons.mp hnd.2.1
  have hxm : x ∉ k ++ y :: m := fun hm => (List.mem_append.mp hm).elim
    (fun hk => hnd.2.2 x hk x (by simp) rfl) hxy.1
  have hym : y ∉ (k ++ [x]).tail ++ m := fun hm => by
    rcases List.mem_append.mp hm with hm | hm
    · rcases List.mem_append.mp (List.mem_of_mem_tail hm) with hk | hk
      · exact hnd.2.2 y hk y (by simp) rfl
      · exact hxy.1 (by simp_all)
    · exact (List.nodup_cons.mp hxy.2).1 hm
  have hxz : x ≠ z := fun e => hxm (List.mem_append_right _ (e ▸ List.mem_of_getLast? hlast))
  have hxt : x ≠ t := fun e => htq (e ▸ by simp)
  have hyt : y ≠ t := fun e => htq (e ▸ by simp)
  refine h.pushTailEnd hτ ht ?_ ?_ ?_ (fun q' hq' => ?_) ?_ (fun u hu => ?_)
    (by simp [s₁]) rfl
  · rw [hL]
    exact (List.Perm.append_left k (List.Perm.swap t x (y :: m))).trans List.perm_middle
  · rw [List.getLast?_append_of_ne_nil _ (by simp), List.getLast?_cons_cons,
      List.getLast?_cons_cons, hlast]
  · simp only [s₁, setPrev_queue, setNext_queue]
    rw [(h.chain q).queue_eq, hz, hL]
    cases k <;> rfl
  · simp [s₁]
  · refine h4.insert_inner ?_ ?_ ?_ ?_ (fun u hu => ?_) (fun u hu => ?_)
    · simp [s₁, setNext_next, hxz]
    · simp [s₁, setNext_next, Ne.symm hzt, Ne.symm hxt]
    · simp [s₁, setPrev_prev, Ne.symm hyt]
    · simp [s₁, setPrev_prev]
    · have hut : u ≠ t := fun e => htq (e ▸ by
        rcases List.mem_append.mp hu with hu | hu <;> simp_all)
      have hux : u ≠ x := fun e => hxm (e ▸ hu)
      by_cases huz : u = z
      · rw [if_pos huz, huz, hzend]
      · simp [s₁, setNext_next, huz, hut, hux]
    · have hut : u ≠ t := fun e => htq (e ▸ by
        rcases List.mem_append.mp hu with hu | hu
        · have := List.mem_of_mem_tail hu
          simp_all
        · simp_all)
      have huy : u ≠ y := fun e => hym (e ▸ hu)
      simp [s₁, setPrev_prev, hut, huy]
  · simp only [List.mem_append, List.mem_cons, not_or] at hu
    simp [s₁, setNext_next, setPrev_prev, hu]

/-- **`push_tail` queues the task**: a real-time task by its deadline, any other at the end. -/
theorem Rep.pushTail [Fintype τ] (hτ : Fintype.card τ < 2 ^ 32 - 1)
    (h : s.Rep L fun u => X u ∨ u = t) (ht : ∀ q', t ∉ L q')
    (hrt : (s.data t).realTime = true → (s.data t).prio = prioRt) :
    ∃ s' z, s.pushTail t q = .ok s' ∧ (s.queued t (L q)).getLast? = some z ∧
      s'.Rep (Function.update L q (s.queued t (L q))) X ∧ s'.errno = s.errno ∧
      s'.data = s.marked t z := by
  obtain ⟨h1, h2, h3, h4, h5⟩ := h.chain q
  have hcard := h5.length_le_card
  rcases List.eq_nil_or_concat' (L q) with hL | ⟨m, z, hL⟩
  · -- an empty queue
    have hq : s.queued t (L q) = [t] := by
      rw [hL, queued]
      split <;> rfl
    have hrun : s.pushTail t q =
        .ok (((s.setHead q (some t)).setTail q (some t)).pushTailEnd t q t) := by
      rw [hL] at h2
      unfold Tasks.pushTail
      rw [h2]
      rfl
    rw [hq]
    refine ⟨_, t, hrun, rfl, h.pushTailEnd hτ ht (by rw [hL]) rfl ?_ (fun q' hq' => ?_)
      (linked_singleton.mpr (if_pos rfl)) (fun u _ => ⟨rfl, rfl⟩) rfl rfl⟩
    · simp [setTail_queue, setHead_queue, h3, hL]
    · simp [setTail_queue, setHead_queue, hq']
  · have hz : (L q).getLast? = some z := by rw [hL]; simp
    have hzt : z ≠ t := fun e => ht q (e ▸ List.mem_of_getLast? hz)
    rw [hz] at h2
    by_cases hr : (s.data t).realTime = true
    · -- a real-time task
      obtain ⟨a, l, hal⟩ : ∃ a l, L q = a :: l := by
        rw [hL]
        cases m with
        | nil => exact ⟨z, [], rfl⟩
        | cons a m => exact ⟨a, m ++ [z], rfl⟩
      rw [hal] at h1 h4 hcard
      have hloop := deadlineLoop_spec t h4 (Nat.lt_succ_of_lt (by simp at hcard; omega) :
        l.length < Fintype.card τ + 1)
      rw [← hal] at hloop
      have hrun : s.pushTail t q = (s.deadlineLoop t (Fintype.card τ + 1) a).bind fun
          | none => .ok ((((s.setNext z (some t)).setPrev t (some z)).setTail q
              (some t)).pushTailEnd t q t)
          | some temp =>
              if temp = a then
                .ok ((((s.setPrev a (some t)).setNext t (some a)).setHead q
                  (some t)).pushTailEnd t q z)
              else
                let s := (s.setPrev t (s.tcb temp).prev).setNext t (some temp)
                match (s.tcb temp).prev with
                | none => .error .nullTcb
                | some prev =>
                    .ok (((s.setNext prev (some t)).setPrev temp (some t)).pushTailEnd t q z) := by
        have hr' : (s.tcb t).realTime = true := hr
        have hp' : ¬ (s.tcb t).prio ≠ prioRt := fun hne => hne (hrt hr)
        unfold Tasks.pushTail
        simp only [h1, h2, List.head?_cons, if_pos hr', if_neg hp']
        rfl
      rw [hrun, hloop]
      rcases s.queued_cases t (L q) hr with ⟨h6, h7⟩ | ⟨y, m', h6, h7, h8⟩ |
        ⟨k, x, y, m', h6, h7, h8⟩
      · rw [h6, h7]
        exact ⟨_, t, rfl, by simp, h.pushTail_end hτ ht hL rfl
          (fun u => by simp [setNext_next]) (fun u => by simp [setPrev_prev])
          (by simp) rfl⟩
      · rw [h6, h8]
        obtain rfl : y = a := by
          rw [h7] at hal
          exact (List.cons.inj hal).1
        refine ⟨_, z, ?_, ?_, h7 ▸ h.pushTail_front hτ ht h7 hz⟩
        · simp only [Except.bind, List.head?_cons, if_true]
        · rw [List.getLast?_cons_cons, ← h7, hz]
      · have hya : y ≠ a := fun e => by
          rw [h7] at hal h5
          have hk : y ∈ (k ++ x :: y :: m').tail := by
            cases k with
            | nil => simp
            | cons b k => simp
          exact ne_head_of_mem_tail h5 hk (by rw [hal, e]; rfl)
        have hyt : y ≠ t := fun e => ht q (by rw [h7, ← e]; simp)
        have hpy : (s.tcb y).prev = some x := by
          rw [← hal, h7] at h4
          exact h4.adjacent.2
        rw [h6, h8]
        refine ⟨_, z, ?_, ?_, h.pushTail_inner hτ ht h7 hz⟩
        · simp only [Except.bind, List.head?_cons, if_neg hya, setNext_prev, setPrev_prev,
            if_neg hyt, hpy]
        · rw [h7, List.getLast?_append_of_ne_nil _ (by simp), List.getLast?_cons_cons] at hz
          rw [List.getLast?_append_of_ne_nil _ (by simp), List.getLast?_cons_cons,
            List.getLast?_cons_cons, hz]
    · -- any other task
      have hq : s.queued t (L q) = L q ++ [t] := by rw [queued, if_neg hr]
      have hrun : s.pushTail t q = .ok ((((s.setPrev t (some z)).setNext z (some t)).setTail q
          (some t)).pushTailEnd t q t) := by
        have hr' : ¬ (s.tcb t).realTime = true := hr
        unfold Tasks.pushTail
        simp only [h2, if_neg hr']
      rw [hq]
      exact ⟨_, t, hrun, by simp, h.pushTail_end hτ ht hL rfl
        (fun u => by simp [setNext_next]) (fun u => by simp [setPrev_prev])
        (by simp) rfl⟩

end Tasks

end Rtx
