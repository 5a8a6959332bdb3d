/-
  File:      Rtx/Kern/Order.lean
  Subject:   What the queue operations keep of a relation along the links, in any state.

  `Arranged R P D s`: every `next` leads from a TCB to one that `R` allows behind it, every HEAD to
  one that `P` allows there, and every TCB satisfies `D`. Only the insertion of a real-time task
  looks at the TCBs it passes; the other operations keep it if the task given is one that `R`
  allows before and behind any other. Where the lists are known, it says that they are ordered
  (`Rep.arranged`, `Arranged.isChain`).
-/
import Rtx.Kern.Guard

namespace Rtx.Tasks

open Lib

variable {τ κ : Type} {s : Tasks τ κ} {t : τ} {q : κ} {R : τ → τ → Prop} {P : κ → τ → Prop}
  {D : τ → TcbData → Prop} {v : Option τ}

/-- Every `next` respects `R`, every HEAD respects `P`, every TCB satisfies `D`. -/
structure Arranged (R : τ → τ → Prop) (P : κ → τ → Prop) (D : τ → TcbData → Prop)
    (s : Tasks τ κ) : Prop where
  next : ∀ t, Leads (R t) (s.tcb t).next
  head : ∀ q, Leads (P q) (s.queue q).head
  data : ∀ t, D t (s.data t)

/-- The property does not depend on the state of a task. -/
def Stateless (D : τ → TcbData → Prop) : Prop := ∀ t d v, D t d → D t { d with state := v }

/-- It depends on the TCBs and the queues only. -/
theorem Arranged.frame {s' : Tasks τ κ} (h : s.Arranged R P D) (ht : s'.tcb = s.tcb)
    (hq : s'.queue = s.queue) : s'.Arranged R P D where
  next := fun t => (congrFun ht t) ▸ h.next t
  head := fun q => (congrFun hq q) ▸ h.head q
  data := fun t => (congrArg (fun x : Tcb τ => D t x.toTcbData) (congrFun ht t)) ▸ h.data t

variable [DecidableEq τ] [DecidableEq κ]

/-! ## 1. Writing the fields -/

namespace Arranged

variable (h : s.Arranged R P D)
include h

theorem setNext (hv : Leads (R t) v) : (s.setNext t v).Arranged R P D := by
  refine ⟨fun u => ?_, h.head, ?_⟩
  · rw [setNext_next]
    split
    next e => exact e ▸ hv
    · exact h.next u
  · rw [setNext_data]
    exact h.data

theorem setPrev : (s.setPrev t v).Arranged R P D := by
  refine ⟨fun u => ?_, h.head, ?_⟩
  · rw [setPrev_next]
    exact h.next u
  · rw [setPrev_data]
    exact h.data

omit [DecidableEq τ] in
theorem setQueue {v : Queue τ} (hv : Leads (P q) v.head) : (s.setQueue q v).Arranged R P D := by
  refine ⟨h.next, fun q' => ?_, h.data⟩
  unfold Tasks.setQueue
  simp only [Function.update_apply]
  split
  next e => exact e ▸ hv
  · exact h.head q'

omit [DecidableEq τ] in
theorem setHead (hv : Leads (P q) v) : (s.setHead q v).Arranged R P D := h.setQueue hv

omit [DecidableEq τ] in
theorem setTail : (s.setTail q v).Arranged R P D := h.setQueue (h.head q)

omit [DecidableEq τ] in
theorem grow : (s.grow q).Arranged R P D := h.setQueue (h.head q)

omit [DecidableEq τ] in
theorem shrink : (s.shrink q).Arranged R P D := h.setQueue (h.head q)

theorem modify {f : TcbData → TcbData} (hf : D t (f (s.data t))) :
    (s.modify t f).Arranged R P D := by
  refine ⟨fun u => ?_, h.head, fun u => ?_⟩
  · rw [modify_next]
    exact h.next u
  · rw [modify_data, Function.update_apply]
    split
    next e => exact e ▸ hf
    · exact h.data u

theorem setState (hD : Stateless D) (v : TaskState) : (s.setState t v).Arranged R P D :=
  h.modify (hD t _ v (h.data t))

/-- The state `push_head` and `push_tail` leave: READY under `c`, else unchanged. -/
theorem setPushed (hD : Stateless D) (c : Prop) [Decidable c] :
    Arranged R P D (if c then s.setState t .ready else s) := by
  split
  · exact h.setState hD .ready
  · exact h

end Arranged

/-! ## 2. The operations -/

section Operations

variable (hD : Stateless D) (h : s.Arranged R P D)
include hD h

/-- The second task of a queue becomes its head. -/
theorem Arranged.popHead
    (hq : ∀ a u, (s.queue q).head = some a → (s.tcb a).next = some u → P q u) :
    (s.popHead q).1.Arranged R P D := by
  unfold Tasks.popHead
  split
  · exact h
  next temp htemp =>
    have h1 := h.setHead (q := q) (v := (s.tcb temp).next) fun u hu => hq temp u htemp hu
    have hend {s' : Tasks τ κ} (h2 : s'.Arranged R P D) :=
      (((h2.shrink (q := q)).setNext (t := temp) Leads.none).setPrev (t := temp)
        (v := none)).setState (t := temp) hD
    dsimp only
    split
    · exact hend h1.setTail _
    · exact hend h1.setPrev _

omit hD in
theorem Arranged.popTail : (s.popTail q).1.Arranged R P D := by
  unfold Tasks.popTail
  split
  · exact h
  next temp htemp =>
    split
    · exact h
    · have h1 := h.setTail (q := q) (v := (s.tcb temp).prev)
      have hend {s' : Tasks τ κ} (h2 : s'.Arranged R P D) :=
        ((h2.shrink (q := q)).setNext (t := temp) Leads.none).setPrev (t := temp) (v := none)
      dsimp only
      split
      · exact hend (h1.setHead Leads.none)
      · exact hend (h1.setNext Leads.none)

/-- A task whose successor may stand behind any other is taken out. -/
theorem Arranged.popTask [Fintype τ]
    (ht : ∀ u, (s.tcb t).next = some u → P q u ∧ ∀ a, R a u) :
    Post (s.popTask t q) fun r => r.1.Arranged R P D := by
  have hloop : ∀ fuel temp, Post (s.popTaskLoop t q fuel temp) fun r => r.1.Arranged R P D := by
    intro fuel
    induction fuel with
    | zero => exact fun _ => trivial
    | succ fuel ih =>
        intro temp
        unfold Tasks.popTaskLoop
        refine Ends.ite (fun _ => h) fun _ => ?_
        cases temp with
        | none => exact trivial
        | some temp =>
            refine Ends.ite (fun e => ?_) fun _ => ih _
            cases hp : (s.tcb temp).prev with
            | none => exact trivial
            | some p =>
                cases hn : (s.tcb temp).next with
                | none => exact trivial
                | some n =>
                    have hr := (ht n (e ▸ hn)).2 p
                    exact ((h.setNext (Leads.some hr)).setPrev).shrink
  unfold Tasks.popTask
  split
  next head hh _ =>
    refine Ends.ite (fun e => ?_) fun _ => ?_
    · refine (h.popHead hD fun a u ha hu => ?_).setState hD .ready
      obtain rfl := Option.some.inj (hh.symm.trans ha)
      exact (ht u (e ▸ hu)).1
    · exact Ends.ite (fun _ => h.popTail) fun _ => hloop _ _
  · exact h

theorem Arranged.pushHead (ht : P q t) (hh : Leads (R t) (s.queue q).head) :
    (s.pushHead t q).Arranged R P D := by
  unfold Tasks.pushHead
  have hend {s' : Tasks τ κ} (h1 : s'.Arranged R P D) (c : Prop) [Decidable c] :=
    ((h1.grow (q := q)).setPushed (t := t) hD c).setPrev (t := t) (v := none)
  dsimp only
  split
  · exact hend ((h.setHead (Leads.some ht)).setTail) _
  next head he =>
    exact hend (((h.setNext (Leads.some (hh head he))).setPrev).setHead (Leads.some ht)) _

/-- A task that is not a real-time task goes behind the last one. -/
theorem Arranged.pushTail [Fintype τ] (hrt : (s.data t).realTime = false) (ht : P q t)
    (hR : ∀ u, R u t) : Post (s.pushTail t q) fun s' => s'.Arranged R P D := by
  have hend : ∀ {s' : Tasks τ κ} {a : τ}, s'.Arranged R P D →
      (s'.pushTailEnd t q a).Arranged R P D := fun {s' a} h' =>
    ((h'.grow (q := q)).setNext (t := a) Leads.none).setPushed hD _
  unfold Tasks.pushTail
  cases htail : (s.queue q).tail with
  | none => exact hend ((h.setHead (Leads.some ht)).setTail)
  | some tail =>
      refine Ends.ite (fun e => ?_) fun _ => ?_
      · cases hrt.symm.trans e
      · exact hend (((h.setPrev).setNext (Leads.some (hR tail))).setTail)

end Operations

/-! ## 3. Queues whose lists are known -/

section Lists

variable {L : κ → List τ} {X : τ → Prop}

omit [DecidableEq τ] [DecidableEq κ] in
/-- The lists are ordered. -/
theorem Arranged.isChain (h : s.Arranged R P D) (hr : s.Rep L X) (q : κ) : (L q).IsChain R :=
  (hr.chain q).linked.1.imp fun _ b e => h.next _ b e.1

omit [DecidableEq τ] [DecidableEq κ] in
/-- Ordered lists are all there is: a TCB in none has no successor, or `R` allows any. -/
theorem Rep.arranged (hr : s.Rep L X) (hX : ∀ t, X t → ∀ u, R t u)
    (hc : ∀ q, (L q).IsChain R) (hh : ∀ q, Leads (P q) (L q).head?) (hd : ∀ t, D t (s.data t)) :
    s.Arranged R P D := by
  refine ⟨fun t u hu => ?_, fun q => (hr.chain q).head ▸ hh q, hd⟩
  by_cases hx : X t
  · exact hX t hx u
  by_cases hm : ∃ q, t ∈ L q
  · obtain ⟨q, hq⟩ := hm
    obtain ⟨l₁, l₂, hl⟩ := List.append_of_mem hq
    have hlinked := (hr.chain q).linked
    rw [hl] at hlinked
    have hn := hu.symm.trans hlinked.next_append
    cases l₂ with
    | nil => cases hn
    | cons y l₂ =>
        obtain rfl := Option.some.inj hn
        exact List.isChain_iff_forall_rel_of_append_cons_cons.mp (hc q) hl
  · rw [hr.off t (fun q hq => hm ⟨q, hq⟩) hx] at hu
    cases hu

end Lists

end Rtx.Tasks
