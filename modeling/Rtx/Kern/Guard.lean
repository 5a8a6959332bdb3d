/-
  File:      Rtx/Kern/Guard.lean
  Subject:   What the queue operations keep in any state, also one whose lists are broken.

  `Guarded A D s`: every link, HEAD and TAIL leads to a TCB of `A`, and every TCB satisfies `D`.
  Every operation on the queues keeps it as long as it is given a TCB of `A`, if `D` survives that
  such a TCB is made ready or running. The operations fail only on a NULL pointer or by not ending.
-/
import Rtx.Kern.QueueSpec
import Rtx.Lib.Outcome

namespace Rtx.Tasks

open Lib

variable {τ κ : Type} {s : Tasks τ κ} {t : τ} {q : κ} {A : τ → Prop} {D : τ → TcbData → Prop}
  {v : Option τ}

/-- The pointer is NULL or leads to a TCB of `A`. -/
def Leads (A : τ → Prop) (v : Option τ) : Prop := ∀ u, v = some u → A u

theorem Leads.none : Leads A none := fun _ e => (by cases e)

theorem Leads.some (h : A t) : Leads A (some t) := fun _ e => Option.some.inj e ▸ h

/-- Every pointer leads to a TCB of `A`, and every TCB satisfies `D`. -/
structure Guarded (A : τ → Prop) (D : τ → TcbData → Prop) (s : Tasks τ κ) : Prop where
  next : ∀ t, Leads A (s.tcb t).next
  prev : ∀ t, Leads A (s.tcb t).prev
  head : ∀ q, Leads A (s.queue q).head
  tail : ∀ q, Leads A (s.queue q).tail
  data : ∀ t, D t (s.data t)

/-- The property does not depend on whether a task of `A` is ready or running. -/
def Closed (A : τ → Prop) (D : τ → TcbData → Prop) : Prop :=
  ∀ t d v, A t → v = .ready ∨ v = .running → D t d → D t { d with state := v }

/-- How an operation on queues can fail. -/
def QueueFault (e : Fault) : Prop := e = .nullTcb ∨ e = .hang

theorem Guarded.trivial (s : Tasks τ κ) : s.Guarded (fun _ => True) fun _ _ => True :=
  ⟨fun _ _ _ => True.intro, fun _ _ _ => True.intro, fun _ _ _ => True.intro,
    fun _ _ _ => True.intro, fun _ => True.intro⟩

theorem Closed.trivial : Closed (fun _ : τ => True) fun _ _ => True := fun _ _ _ _ _ => id

/-- It depends on the TCBs and the queues only. -/
theorem Guarded.frame {s' : Tasks τ κ} (h : s.Guarded A D) (ht : s'.tcb = s.tcb)
    (hq : s'.queue = s.queue) : s'.Guarded A D where
  next := fun t => (congrFun ht t) ▸ h.next t
  prev := fun t => (congrFun ht t) ▸ h.prev t
  head := fun q => (congrFun hq q) ▸ h.head q
  tail := fun q => (congrFun hq q) ▸ h.tail q
  data := fun t => (congrArg (fun x : Tcb τ => D t x.toTcbData) (congrFun ht t)) ▸ h.data t

variable [DecidableEq τ] [DecidableEq κ]

/-! ## 1. Writing the fields -/

namespace Guarded

variable (h : s.Guarded A D)
include h

theorem setNext (hv : Leads A v) : (s.setNext t v).Guarded A D := by
  refine ⟨fun u => ?_, fun u => ?_, h.head, h.tail, ?_⟩
  · rw [setNext_next]
    split
    · exact hv
    · exact h.next u
  · rw [setNext_prev]
    exact h.prev u
  · rw [setNext_data]
    exact h.data

theorem setPrev (hv : Leads A v) : (s.setPrev t v).Guarded A D := by
  refine ⟨fun u => ?_, fun u => ?_, h.head, h.tail, ?_⟩
  · rw [setPrev_next]
    exact h.next u
  · rw [setPrev_prev]
    split
    · exact hv
    · exact h.prev u
  · rw [setPrev_data]
    exact h.data

omit [DecidableEq τ] in
theorem setQueue {v : Queue τ} (hh : Leads A v.head) (ht : Leads A v.tail) :
    (s.setQueue q v).Guarded A D := by
  refine ⟨h.next, h.prev, fun q' => ?_, fun q' => ?_, h.data⟩
  all_goals unfold Tasks.setQueue
  all_goals simp only [Function.update_apply]
  all_goals split
  · exact hh
  · exact h.head q'
  · exact ht
  · exact h.tail q'

omit [DecidableEq τ] in
theorem setHead (hv : Leads A v) : (s.setHead q v).Guarded A D := h.setQueue hv (h.tail q)

omit [DecidableEq τ] in
theorem setTail (hv : Leads A v) : (s.setTail q v).Guarded A D := h.setQueue (h.head q) hv

omit [DecidableEq τ] in
theorem grow : (s.grow q).Guarded A D := h.setQueue (h.head q) (h.tail q)

omit [DecidableEq τ] in
theorem shrink : (s.shrink q).Guarded A D := h.setQueue (h.head q) (h.tail q)

theorem modify {f : TcbData → TcbData} (hf : D t (f (s.data t))) : (s.modify t f).Guarded A D := by
  refine ⟨fun u => ?_, fun u => ?_, h.head, h.tail, fun u => ?_⟩
  · rw [modify_next]
    exact h.next u
  · rw [modify_prev]
    exact h.prev u
  · rw [modify_data, Function.update_apply]
    split
    next e => exact e ▸ hf
    · exact h.data u

theorem setState (hD : Closed A D) (ht : A t) {v : TaskState} (hv : v = .ready ∨ v = .running) :
    (s.setState t v).Guarded A D := h.modify (hD t _ v ht hv (h.data t))

/-- The state `pop_head` leaves: READY for a blocked sender, else RUNNING. -/
theorem setPopped (hD : Closed A D) (ht : A t) (c : Prop) [Decidable c] :
    (s.setState t (if c then .ready else .running)).Guarded A D := by
  refine h.setState hD ht ?_
  split
  · exact Or.inl rfl
  · exact Or.inr rfl

/-- The state `push_head` and `push_tail` leave: READY under `c`, else unchanged. -/
theorem setPushed (hD : Closed A D) (ht : A t) (c : Prop) [Decidable c] :
    Guarded A D (if c then s.setState t .ready else s) := by
  split
  · exact h.setState hD ht (Or.inl rfl)
  · exact h

end Guarded

/-! ## 2. The operations -/

section Operations

variable (hD : Closed A D) (h : s.Guarded A D)
include hD h

theorem Guarded.popHead : (s.popHead q).1.Guarded A D ∧ Leads A (s.popHead q).2 := by
  unfold Tasks.popHead
  split
  · exact ⟨h, Leads.none⟩
  next temp htemp =>
    refine ⟨?_, htemp ▸ h.head q⟩
    have h1 := h.setHead (q := q) (h.next temp)
    have hend {s' : Tasks τ κ} (h2 : s'.Guarded A D) :=
      (((h2.shrink (q := q)).setNext (t := temp) Leads.none).setPrev (t := temp) Leads.none).setPopped
        hD (h.head q _ htemp)
    dsimp only
    split
    · exact hend (h1.setTail Leads.none) _
    · exact hend (h1.setPrev Leads.none) _

omit hD in
theorem Guarded.popTail : (s.popTail q).1.Guarded A D := by
  unfold Tasks.popTail
  split
  · exact h
  next temp htemp =>
    split
    · exact h
    · have h1 := h.setTail (q := q) (h.prev temp)
      have hend {s' : Tasks τ κ} (h2 : s'.Guarded A D) :=
        ((h2.shrink (q := q)).setNext (t := temp) Leads.none).setPrev (t := temp) Leads.none
      dsimp only
      split
      · exact hend (h1.setHead Leads.none)
      · exact hend (h1.setNext Leads.none)

omit hD in
/-- The loop of `pop_task`, by induction on the nodes still to be met. -/
theorem Guarded.popTaskLoop (fuel : Nat) (temp : Option τ) :
    Ends (s.popTaskLoop t q fuel temp) QueueFault fun r => r.1.Guarded A D := by
  induction fuel generalizing temp with
  | zero => exact Or.inr rfl
  | succ fuel ih =>
      unfold Tasks.popTaskLoop
      refine Ends.ite (fun _ => h) fun _ => ?_
      cases temp with
      | none => exact Or.inl rfl
      | some temp =>
          refine Ends.ite (fun _ => ?_) fun _ => ih _
          cases hp : (s.tcb temp).prev with
          | none => exact Or.inl rfl
          | some p =>
              cases hn : (s.tcb temp).next with
              | none => exact Or.inl rfl
              | some n =>
                  exact ((h.setNext (hn ▸ h.next temp)).setPrev (hp ▸ h.prev temp)).shrink

theorem Guarded.popTask [Fintype τ] :
    Ends (s.popTask t q) QueueFault fun r => r.1.Guarded A D := by
  unfold Tasks.popTask
  split
  next head hh _ =>
    refine Ends.ite (fun e => ?_) fun _ => ?_
    · exact (h.popHead hD).1.setState hD (e ▸ h.head q _ hh) (Or.inl rfl)
    · exact Ends.ite (fun _ => h.popTail) fun _ => h.popTaskLoop _ _
  · exact h

theorem Guarded.pushHead (ht : A t) : (s.pushHead t q).Guarded A D := by
  unfold Tasks.pushHead
  have hend {s' : Tasks τ κ} (h1 : s'.Guarded A D) (c : Prop) [Decidable c] :=
    ((h1.grow (q := q)).setPushed hD ht c).setPrev (t := t) Leads.none
  dsimp only
  split
  · exact hend ((h.setHead (Leads.some ht)).setTail (Leads.some ht)) _
  next head hh =>
    exact hend (((h.setNext (hh ▸ h.head q)).setPrev (Leads.some ht)).setHead (Leads.some ht)) _

omit hD [DecidableEq τ] [DecidableEq κ] in
/-- The loop of `push_tail` stops at a node of the list, or behind it. -/
theorem Guarded.deadlineLoop (fuel : Nat) {a : τ} (ha : A a) :
    Ends (s.deadlineLoop t fuel a) QueueFault (Leads A) := by
  induction fuel generalizing a with
  | zero => exact Or.inr rfl
  | succ fuel ih =>
      unfold Tasks.deadlineLoop
      refine Ends.ite (fun _ => ?_) fun _ => Leads.some ha
      cases hn : (s.tcb a).next with
      | none => exact Leads.none
      | some b => exact ih (h.next a b hn)

theorem Guarded.pushTailEnd {a : τ} (ha : A a) : (s.pushTailEnd t q a).Guarded A D := by
  unfold Tasks.pushTailEnd
  exact ((h.grow (q := q)).setNext (t := a) Leads.none).setPushed hD ha _

theorem Guarded.pushTail [Fintype τ] (ht : A t) :
    Ends (s.pushTail t q) QueueFault fun s' => s'.Guarded A D := by
  have hst := Leads.some ht
  unfold Tasks.pushTail
  cases htail : (s.queue q).tail with
  | none => exact ((h.setHead hst).setTail hst).pushTailEnd hD ht
  | some tail =>
      have ha := h.tail q tail htail
      refine Ends.ite (fun _ => ?_) fun _ => ?_
      · refine Ends.ite (fun _ => ⟨h.next, h.prev, h.head, h.tail, h.data⟩) fun _ => ?_
        cases hhead : (s.queue q).head with
        | none => exact Or.inl rfl
        | some head =>
            have hb := h.head q head hhead
            refine Ends.bind (h.deadlineLoop _ hb) fun r hr => ?_
            cases r with
            | none => exact (((h.setNext hst).setPrev (Leads.some ha)).setTail hst).pushTailEnd hD ht
            | some temp =>
                refine Ends.ite (fun _ => ?_) fun _ => ?_
                · exact (((h.setPrev hst).setNext (Leads.some hb)).setHead hst).pushTailEnd hD ha
                · have h1 := (h.setPrev (t := t) (h.prev temp)).setNext (t := t) hr
                  dsimp only
                  cases (((s.setPrev t (s.tcb temp).prev).setNext t (some temp)).tcb temp).prev with
                  | none => exact Or.inl rfl
                  | some p => exact ((h1.setNext hst).setPrev hst).pushTailEnd hD ha
      · exact (((h.setPrev (Leads.some ha)).setNext hst).setTail hst).pushTailEnd hD ht

end Operations

end Rtx.Tasks
