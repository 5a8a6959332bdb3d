/-
  File:      Rtx/Kern/View.lean
  Subject:   Some of the queues: the operations seen through a choice of queues.

  `s.view f` forgets every queue but those that the injective `f` names. An operation on a queue
  named by `f` does the same before and after the others are forgotten, so that what `Rep` says of
  the operations holds wherever the named queues are lists, whatever the others are. With a single
  queue named it is a statement about one list (`Chain`).
-/
import Rtx.Kern.QueueSpec

namespace Rtx

open Lib

namespace Tasks

variable {τ κ ι : Type} [DecidableEq τ] [DecidableEq κ] [DecidableEq ι] {f : ι → κ}
  {s s' : Tasks τ κ} {q : ι} {t u : τ}

/-! ## 1. The view and the operations -/

/-- The queues that `f` names. -/
def view (f : ι → κ) (s : Tasks τ κ) : Tasks τ ι := ⟨s.tcb, fun q => s.queue (f q), s.errno⟩

section Writes

variable (s : Tasks τ κ) (q : ι) (t : τ) (v : Option τ)

omit [DecidableEq τ] [DecidableEq κ] [DecidableEq ι] in
@[simp] theorem view_queue : (s.view f).queue q = s.queue (f q) := rfl

omit [DecidableEq τ] [DecidableEq κ] [DecidableEq ι] in
@[simp] theorem view_tcb : (s.view f).tcb = s.tcb := rfl

omit [DecidableEq κ] [DecidableEq ι] in
theorem view_setNext : (s.view f).setNext t v = (s.setNext t v).view f := rfl

omit [DecidableEq κ] [DecidableEq ι] in
theorem view_setPrev : (s.view f).setPrev t v = (s.setPrev t v).view f := rfl

omit [DecidableEq κ] [DecidableEq ι] in
theorem view_setState (x : TaskState) : (s.view f).setState t x = (s.setState t x).view f := rfl

omit [DecidableEq τ] in
theorem view_setQueue (hf : f.Injective) (x : Queue τ) :
    (s.view f).setQueue q x = (s.setQueue (f q) x).view f := by
  unfold setQueue view
  simp only [Tasks.mk.injEq, true_and, and_true]
  exact (Function.update_comp_eq_of_injective s.queue hf q x).symm

omit [DecidableEq τ] in
theorem view_setHead (hf : f.Injective) : (s.view f).setHead q v = (s.setHead (f q) v).view f :=
  view_setQueue s q hf _

omit [DecidableEq τ] in
theorem view_setTail (hf : f.Injective) : (s.view f).setTail q v = (s.setTail (f q) v).view f :=
  view_setQueue s q hf _

omit [DecidableEq τ] in
theorem view_grow (hf : f.Injective) : (s.view f).grow q = (s.grow (f q)).view f :=
  view_setQueue s q hf _

omit [DecidableEq τ] in
theorem view_shrink (hf : f.Injective) : (s.view f).shrink q = (s.shrink (f q)).view f :=
  view_setQueue s q hf _

end Writes

section Operations

variable (hf : f.Injective) (s : Tasks τ κ) (q : ι) (t : τ)
include hf

theorem view_popHead :
    (s.view f).popHead q = ((s.popHead (f q)).1.view f, (s.popHead (f q)).2) := by
  unfold popHead
  rw [view_queue]
  cases (s.queue (f q)).head with
  | none => rfl
  | some a =>
      have hn : ((s.view f).tcb a).next = (s.tcb a).next := rfl
      simp only [hn]
      cases (s.tcb a).next with
      | none => simp only [view_setHead _ _ _ hf, view_setTail _ _ _ hf, view_shrink _ _ hf]; rfl
      | some b => simp only [view_setHead _ _ _ hf, view_setPrev, view_shrink _ _ hf]; rfl

theorem view_popTail :
    (s.view f).popTail q = ((s.popTail (f q)).1.view f, (s.popTail (f q)).2) := by
  unfold popTail
  rw [view_queue]
  cases (s.queue (f q)).tail with
  | none => rfl
  | some a =>
      simp only [view_tcb]
      split
      · rfl
      cases (s.tcb a).prev with
      | none => simp only [view_setHead _ _ _ hf, view_setTail _ _ _ hf, view_shrink _ _ hf]; rfl
      | some b => simp only [view_setTail _ _ _ hf, view_setNext, view_shrink _ _ hf]; rfl

theorem view_popTaskLoop (fuel : Nat) (v : Option τ) :
    (s.view f).popTaskLoop t q fuel v =
      (s.popTaskLoop t (f q) fuel v).map fun x => (x.1.view f, x.2) := by
  induction fuel generalizing v with
  | zero => rfl
  | succ fuel ih =>
      unfold popTaskLoop
      rw [view_queue]
      split
      · rfl
      cases v with
      | none => rfl
      | some a =>
          simp only [view_tcb]
          split
          · cases (s.tcb a).prev with
            | none => rfl
            | some x =>
                cases (s.tcb a).next with
                | none => rfl
                | some y =>
                    simp only [view_setNext, view_setPrev, view_shrink _ _ hf]
                    rfl
          · exact ih _

theorem view_popTask [Fintype τ] :
    (s.view f).popTask t q = (s.popTask t (f q)).map fun x => (x.1.view f, x.2) := by
  unfold popTask
  rw [view_queue, view_popHead hf, view_popTail hf]
  cases (s.queue (f q)).head with
  | none => rfl
  | some a =>
      cases (s.queue (f q)).tail with
      | none => rfl
      | some z =>
          dsimp only
          split
          · rfl
          split
          · rfl
          · exact view_popTaskLoop hf s q t _ _

theorem view_pushHead : (s.view f).pushHead t q = (s.pushHead t (f q)).view f := by
  unfold pushHead
  rw [view_queue]
  cases (s.queue (f q)).head with
  | none =>
      simp only [view_setHead _ _ _ hf, view_setTail _ _ _ hf, view_grow _ _ hf, view_tcb,
        view_setState, ← apply_ite (view f), view_setPrev]
  | some a =>
      simp only [view_setNext, view_setPrev, view_setHead _ _ _ hf, view_grow _ _ hf, view_tcb,
        view_setState, ← apply_ite (view f)]

omit hf in
theorem view_deadlineLoop (fuel : Nat) (a : τ) :
    (s.view f).deadlineLoop t fuel a = s.deadlineLoop t fuel a := by
  induction fuel generalizing a with
  | zero => rfl
  | succ fuel ih =>
      rw [deadlineLoop_succ, deadlineLoop_succ]
      refine ite_congr rfl (fun _ => ?_) fun _ => rfl
      rw [view_tcb]
      cases (s.tcb a).next with
      | none => rfl
      | some b => exact ih b

theorem view_pushTailEnd (z : τ) :
    (s.view f).pushTailEnd t q z = (s.pushTailEnd t (f q) z).view f := by
  unfold pushTailEnd
  simp only [view_grow _ _ hf, view_setNext, view_tcb, view_setState, ← apply_ite (view f)]

theorem view_pushTail [Fintype τ] :
    (s.view f).pushTail t q = (s.pushTail t (f q)).map (view f) := by
  unfold pushTail
  rw [view_queue]
  cases (s.queue (f q)).tail with
  | none => simp only [view_setHead _ _ _ hf, view_setTail _ _ _ hf, view_pushTailEnd hf]; rfl
  | some z =>
      have ht : (s.view f).tcb t = s.tcb t := rfl
      by_cases hr : (s.tcb t).realTime = true
      · by_cases hp : (s.tcb t).prio ≠ prioRt
        · simp only [ht, if_pos hr, if_pos hp]
          rfl
        simp only [ht, if_pos hr, if_neg hp]
        cases (s.queue (f q)).head with
        | none => rfl
        | some a =>
            dsimp only
            rw [view_deadlineLoop]
            cases s.deadlineLoop t (Fintype.card τ + 1) a with
            | error e => rfl
            | ok v =>
                cases v with
                | none =>
                    change Except.ok _ = Except.ok _
                    simp only [view_setNext, view_setPrev, view_setTail _ _ _ hf,
                      view_pushTailEnd hf]
                | some b =>
                    simp only [view_setNext, view_setPrev, view_setHead _ _ _ hf,
                      view_pushTailEnd hf]
                    change (if b = a then _ else _) = Except.map _ (if b = a then _ else _)
                    split
                    · rfl
                    · simp only [view_tcb]
                      generalize (s.setPrev t (s.tcb b).prev).setNext t (some b) = s₁
                      cases (s₁.tcb b).prev with
                      | none => rfl
                      | some x => rfl
      · simp only [ht, if_neg hr, view_setNext, view_setPrev, view_setTail _ _ _ hf,
          view_pushTailEnd hf]
        rfl

end Operations

/-! ## 2. One queue -/

section One

variable [Fintype τ] (hτ : Fintype.card τ < 2 ^ 32 - 1) {q : κ} {l : List τ}

omit [DecidableEq τ] [DecidableEq κ] [Fintype τ] in
theorem Chain.rep (h : s.Chain q l) :
    (s.view fun _ : Unit => q).Rep (fun _ => l) fun _ => True where
  chain _ := ⟨h.head, h.tail, h.size, h.linked, h.nodup⟩
  disj _ _ _ _ _ := rfl
  off _ _ hx := absurd trivial hx

omit [Fintype τ] in
/-- Writing other fields than the links changes no list. -/
theorem Chain.modify (h : s.Chain q l) (t : τ) (f : TcbData → TcbData) :
    (s.modify t f).Chain q l :=
  ⟨h.head, h.tail, h.size, h.linked.congr (fun u _ => s.modify_next t u f)
    (fun u _ => s.modify_prev t u f), h.nodup⟩

include hτ

/-- `push_tail` on a queue that is a list, whatever the other queues are. -/
theorem Chain.pushTail (h : s.Chain q l) (ht : t ∉ l)
    (hrt : (s.data t).realTime = true → (s.data t).prio = prioRt) :
    ∃ s' z, s.pushTail t q = .ok s' ∧ (s.queued t l).getLast? = some z ∧
      s'.Chain q (s.queued t l) ∧ s'.errno = s.errno ∧ s'.data = s.marked t z := by
  obtain ⟨v, z, h1, h2, h3, h4, h5⟩ := (h.rep.mono fun _ _ => Or.inl trivial).pushTail
    (X := fun _ => True) (q := ()) hτ (fun _ => ht) hrt
  have hinj : Function.Injective fun _ : Unit => q := fun _ _ _ => rfl
  rw [view_pushTail hinj s () t] at h1
  cases hp : s.pushTail t q with
  | error e => rw [hp] at h1; cases h1
  | ok s' =>
      rw [hp] at h1
      obtain rfl : s'.view (fun _ : Unit => q) = v := Except.ok.inj h1
      have hc := h3.chain ()
      rw [Function.update_self] at hc
      exact ⟨s', z, rfl, h2, ⟨hc.head, hc.tail, hc.size, hc.linked, hc.nodup⟩, h4, h5⟩

/-- `pop_head` on a queue that is a list. -/
theorem Chain.popHead (h : s.Chain q (t :: l)) :
    (s.popHead q).2 = some t ∧ (s.popHead q).1.Chain q l ∧
      (s.popHead q).1.data = Function.update s.data t
        { s.data t with state := if (s.data t).state = .blkSend then .ready else .running } := by
  obtain ⟨h1, h2, h3, -⟩ := h.rep.popHead (q := ()) hτ rfl
  have hinj : Function.Injective fun _ : Unit => q := fun _ _ _ => rfl
  rw [view_popHead hinj s ()] at h1 h2 h3
  have hc := h2.chain ()
  rw [Function.update_self] at hc
  exact ⟨h1, ⟨hc.head, hc.tail, hc.size, hc.linked, hc.nodup⟩, h3⟩

end One

/-! ## 3. What an operation on a list writes -/

/-- Only TCBs of `M` and the queue `q` are written. -/
structure Within (s s' : Tasks τ κ) (q : κ) (M : τ → Prop) : Prop where
  tcb : ∀ u, ¬ M u → s'.tcb u = s.tcb u
  queue : ∀ q', q' ≠ q → s'.queue q' = s.queue q'

section Within

variable {s₁ : Tasks τ κ} {q : κ} {M : τ → Prop} {l : List τ}

omit [DecidableEq τ] [DecidableEq κ] in
theorem Within.refl (s : Tasks τ κ) (q : κ) (M : τ → Prop) : s.Within s q M :=
  ⟨fun _ _ => rfl, fun _ _ => rfl⟩

omit [DecidableEq τ] [DecidableEq κ] in
theorem Within.trans (h : s.Within s₁ q M) (h' : s₁.Within s' q M) : s.Within s' q M :=
  ⟨fun u hu => (h'.tcb u hu).trans (h.tcb u hu), fun q' hq => (h'.queue q' hq).trans (h.queue q' hq)⟩

variable (h : s.Within s₁ q M)
include h

omit [DecidableEq κ] in
theorem Within.setNext (ht : M t) (v : Option τ) : s.Within (s₁.setNext t v) q M :=
  ⟨fun u hu => (Function.update_of_ne (show u ≠ t from fun e => hu (e ▸ ht)) _ _).trans
    (h.tcb u hu), h.queue⟩

omit [DecidableEq κ] in
theorem Within.setPrev (ht : M t) (v : Option τ) : s.Within (s₁.setPrev t v) q M :=
  ⟨fun u hu => (Function.update_of_ne (show u ≠ t from fun e => hu (e ▸ ht)) _ _).trans
    (h.tcb u hu), h.queue⟩

omit [DecidableEq κ] in
theorem Within.modify (ht : M t) (f : TcbData → TcbData) : s.Within (s₁.modify t f) q M :=
  ⟨fun u hu => (Function.update_of_ne (show u ≠ t from fun e => hu (e ▸ ht)) _ _).trans
    (h.tcb u hu), h.queue⟩

omit [DecidableEq τ] in
theorem Within.setQueue (x : Queue τ) : s.Within (s₁.setQueue q x) q M :=
  ⟨h.tcb, fun q' hq => (Function.update_of_ne hq _ _).trans (h.queue q' hq)⟩

theorem Within.popHead (hc : s₁.Chain q (t :: l)) (hM : ∀ u ∈ t :: l, M u) :
    s.Within (s₁.popHead q).1 q M := by
  have hh : (s₁.queue q).head = some t := hc.head
  have hn : (s₁.tcb t).next = l.head? := hc.linked.next_head
  have ht : M t := hM t List.mem_cons_self
  unfold Tasks.popHead
  simp only [hh, hn]
  refine Within.modify (Within.setPrev (Within.setNext (Within.setQueue ?_ _) ht _) ht _) ht _
  cases l with
  | nil => exact (h.setQueue _).setQueue _
  | cons u l => exact (h.setQueue _).setPrev (hM u (by simp)) _

/-- `push_tail` of a task that is no real-time task. -/
theorem Within.pushTail [Fintype τ] (hc : s₁.Chain q l) (hM : ∀ u ∈ t :: l, M u)
    (hrt : (s₁.data t).realTime = false) (hp : s₁.pushTail t q = .ok s') : s.Within s' q M := by
  have ht : M t := hM t List.mem_cons_self
  have hend : ∀ {s₂ : Tasks τ κ}, s.Within s₂ q M → s.Within (s₂.pushTailEnd t q t) q M := by
    intro s₂ h₂
    have h₃ := (h₂.setQueue { s₂.queue q with
      currentSize := add32 (s₂.queue q).currentSize 1 }).setNext ht none
    unfold Tasks.pushTailEnd
    dsimp only
    split
    · exact h₃.modify ht _
    · exact h₃
  have hrt' : (s₁.tcb t).realTime = false := hrt
  unfold Tasks.pushTail at hp
  cases hz : (s₁.queue q).tail with
  | none =>
      rw [hz] at hp
      obtain rfl := Except.ok.inj hp
      exact hend ((h.setQueue _).setQueue _)
  | some z =>
      rw [hz] at hp
      simp only [hrt', Bool.false_eq_true, if_false] at hp
      obtain rfl := Except.ok.inj hp
      have hzl : z ∈ l := List.mem_of_getLast? (hc.tail.symm.trans hz)
      exact hend (((h.setPrev ht _).setNext (hM z (List.mem_cons_of_mem t hzl)) _).setQueue _)

end Within

end Tasks

end Rtx
