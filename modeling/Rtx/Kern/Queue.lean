/-
  File:      Rtx/Kern/Queue.lean
  Subject:   Task control blocks and the intrusive queues of priority_queue.c.

  TCBs are reached through pointers of a finite type `τ`, queues through pointers of a type `κ`;
  an optional pointer is one that may be NULL. Every TCB has one pair of links, whatever queue it
  is in, and nothing stops the code from linking it twice.

  An operation fails with `nullTcb` where the C code follows a NULL pointer and with `hang` where
  its loop never ends: a loop along `next` that has met more nodes than there are comes round for
  ever.
-/
import Mathlib.Data.Fintype.Card
import Rtx.Msg.Ring

namespace Rtx

/-! ## 1. Data -/

/-- The task states of common.h. -/
inductive TaskState where
  | dormant | ready | running | blkSend | blkRecv | suspended
  deriving DecidableEq, Repr

/-- A `TCB` without its links. `messageHeader` stands for the message the pointer points to. -/
structure TcbData where
  msp : Nat
  priv : Nat
  tid : Nat
  prio : Nat
  state : TaskState
  ptask : Nat
  psp : Nat
  uStackSize : Nat
  pspBase : Option Nat
  messageHeader : Option Buf
  tskPeriod : Nat
  tskDeadline : Nat
  realTime : Bool
  nthExecution : Int

/-- A `TCB`. -/
structure Tcb (τ : Type) extends TcbData where
  prev : Option τ
  next : Option τ

/-- A `QUEUE`. -/
structure Queue (τ : Type) where
  head : Option τ
  tail : Option τ
  currentSize : Nat
  deriving DecidableEq, Repr

/-- All TCBs and all queues. -/
structure Tasks (τ κ : Type) where
  tcb : τ → Tcb τ
  queue : κ → Queue τ
  errno : Errno

namespace Tasks

variable {τ κ : Type} [DecidableEq τ] [DecidableEq κ] (s : Tasks τ κ)

/-! ## 2. Writing the fields -/

def setNext (t : τ) (v : Option τ) : Tasks τ κ :=
  { s with tcb := Function.update s.tcb t { s.tcb t with next := v } }

def setPrev (t : τ) (v : Option τ) : Tasks τ κ :=
  { s with tcb := Function.update s.tcb t { s.tcb t with prev := v } }

/-- Write fields of a TCB other than its links. -/
def modify (t : τ) (f : TcbData → TcbData) : Tasks τ κ :=
  { s with tcb := Function.update s.tcb t { s.tcb t with toTcbData := f (s.tcb t).toTcbData } }

def setState (t : τ) (v : TaskState) : Tasks τ κ := s.modify t fun d => { d with state := v }

def setQueue (q : κ) (v : Queue τ) : Tasks τ κ := { s with queue := Function.update s.queue q v }

def setHead (q : κ) (v : Option τ) : Tasks τ κ := s.setQueue q { s.queue q with head := v }

def setTail (q : κ) (v : Option τ) : Tasks τ κ := s.setQueue q { s.queue q with tail := v }

def setSize (q : κ) (n : Nat) : Tasks τ κ := s.setQueue q { s.queue q with currentSize := n }

/-- `queue->current_size = queue->current_size + 1`. -/
def grow (q : κ) : Tasks τ κ := s.setSize q (add32 (s.queue q).currentSize 1)

/-- `queue->current_size = queue->current_size - 1`. -/
def shrink (q : κ) : Tasks τ κ := s.setSize q (sub32 (s.queue q).currentSize 1)

/-! ## 3. The operations -/

/-- `pop_head`: the state, and the TCB taken or NULL. -/
def popHead (q : κ) : Tasks τ κ × Option τ :=
  match (s.queue q).head with
  | none => (s, none)
  | some temp =>
      let next := (s.tcb temp).next
      let s := s.setHead q next
      let s :=
        match next with
        | none => s.setTail q none
        | some n => s.setPrev n none
      let s := ((s.shrink q).setNext temp none).setPrev temp none
      let s := s.setState temp (if (s.tcb temp).state = .blkSend then .ready else .running)
      (s, some temp)

/-- `pop_tail`. -/
def popTail (q : κ) : Tasks τ κ × Option τ :=
  match (s.queue q).tail with
  | none => (s, none)
  | some temp =>
      if (s.queue q).currentSize = 0 then (s, none)
      else
        let prev := (s.tcb temp).prev
        let s := s.setTail q prev
        let s :=
          match prev with
          | none => s.setHead q none
          | some p => s.setNext p none
        let s := ((s.shrink q).setNext temp none).setPrev temp none
        (s, some temp)

/-- The loop of `pop_task`, at `temp`. -/
def popTaskLoop (t : τ) (q : κ) : Nat → Option τ → Except Fault (Tasks τ κ × Int)
  | 0, _ => .error .hang
  | fuel + 1, temp =>
      if temp = (s.queue q).tail then .ok (s, 0)
      else
        match temp with
        | none => .error .nullTcb
        | some temp =>
            if temp = t then
              match (s.tcb temp).prev, (s.tcb temp).next with
              | some preTcb, some nextTcb =>
                  .ok (((s.setNext preTcb (some nextTcb)).setPrev nextTcb (some preTcb)).shrink q,
                    1)
              | _, _ => .error .nullTcb
            else popTaskLoop t q fuel (s.tcb temp).next

/-- `pop_task`. -/
def popTask [Fintype τ] (t : τ) (q : κ) : Except Fault (Tasks τ κ × Int) :=
  match (s.queue q).head, (s.queue q).tail with
  | some head, some tail =>
      if head = t then .ok ((s.popHead q).1.setState t .ready, 1)
      else if tail = t then .ok ((s.popTail q).1, 1)
      else s.popTaskLoop t q (Fintype.card τ + 2) (s.tcb head).next
  | _, _ => .ok (s, -1)

/-- `push_head`; nobody reads its result. -/
def pushHead (t : τ) (q : κ) : Tasks τ κ :=
  let s :=
    match (s.queue q).head with
    | none => (s.setHead q (some t)).setTail q (some t)
    | some head => ((s.setNext t (some head)).setPrev head (some t)).setHead q (some t)
  let s := s.grow q
  let s := if (s.tcb t).state ≠ .suspended then s.setState t .ready else s
  s.setPrev t none

/-- The loop of `push_tail` for a real-time task: the first task from `temp` on whose deadline is
    not before that of `t`. -/
def deadlineLoop (t : τ) : Nat → τ → Except Fault (Option τ)
  | 0, _ => .error .hang
  | fuel + 1, temp =>
      if (s.tcb temp).tskDeadline < (s.tcb t).tskDeadline then
        match (s.tcb temp).next with
        | none => .ok none
        | some temp => deadlineLoop t fuel temp
      else .ok (some temp)

/-- `push_tail` behind its insertion: count, end the list and set the state of the tail. -/
def pushTailEnd (t : τ) (q : κ) (tail : τ) : Tasks τ κ :=
  let s := (s.grow q).setNext tail none
  if (s.tcb t).state ≠ .blkSend ∧ (s.tcb t).state ≠ .suspended then s.setState tail .ready else s

/-- `push_tail`; nobody reads its result. -/
def pushTail [Fintype τ] (t : τ) (q : κ) : Except Fault (Tasks τ κ) :=
  match (s.queue q).tail with
  | none => .ok (((s.setHead q (some t)).setTail q (some t)).pushTailEnd t q t)
  | some tail =>
      if (s.tcb t).realTime then
        if (s.tcb t).prio ≠ prioRt then .ok { s with errno := .EPERM }
        else
          match (s.queue q).head with
          | none => .error .nullTcb
          | some head => do
              match ← s.deadlineLoop t (Fintype.card τ + 1) head with
              | none =>
                  let s := ((s.setNext tail (some t)).setPrev t (some tail)).setTail q (some t)
                  .ok (s.pushTailEnd t q t)
              | some temp =>
                  if temp = head then
                    let s := ((s.setPrev head (some t)).setNext t (some head)).setHead q (some t)
                    .ok (s.pushTailEnd t q tail)
                  else
                    let s := (s.setPrev t (s.tcb temp).prev).setNext t (some temp)
                    match (s.tcb temp).prev with
                    | none => .error .nullTcb
                    | some prev =>
                        let s := (s.setNext prev (some t)).setPrev temp (some t)
                        .ok (s.pushTailEnd t q tail)
      else
        let s := ((s.setPrev t (some tail)).setNext tail (some t)).setTail q (some t)
        .ok (s.pushTailEnd t q t)

end Tasks

end Rtx
