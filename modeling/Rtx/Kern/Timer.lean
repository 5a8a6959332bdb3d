/-
  File:      Rtx/Kern/Timer.lean
  Subject:   TIMER0_IRQHandler of timer.c.

  The handler takes the values of TIMER1's two counters as arguments: `get_tick` reads them and
  does not fail. It runs between the calls, never inside one: SVC has the higher priority.
-/
import Rtx.Kern.Task

namespace Rtx

namespace Kernel

variable (k : Kernel)

/-- A suspended task is due: its next period has begun. -/
def due (t : Tid) : Bool :=
  sub32 (k.tcb t).tskDeadline (k.tcb t).tskPeriod ≤ k.timerCount

/-- `(tk.tc*2000+tk.pc/50000)`. -/
def correctRound (tc pc : Nat) : Nat := (tc * 2000 + pc / 50000) % 2 ^ 32

/-- The loop of the handler over `suspend_tsk`, at `tempTcb`; cut off after the given number of
    rounds. -/
def releaseDue : Nat → Kernel → Option Tid → Except Fault Kernel
  | _, k, none => .ok k
  | 0, _, some _ => .error .hang
  | fuel + 1, k, some addTcb => do
      let tempTcb := (k.tcb addTcb).next
      if k.due addTcb then
        let k ← k.popTask addTcb .suspend
        let k := k.setTaskState addTcb .ready
        let k ← k.pushTail addTcb (← readyAt (priority2order (k.tcb addTcb).prio))
        releaseDue fuel k tempTcb
      else releaseDue fuel k tempTcb

/-- `nth_execution = nth_execution + 1`. -/
def countExecution (t : Tid) : Kernel :=
  k.modifyTcb t fun d => { d with nthExecution := d.nthExecution + 1 }

/-- `gp_current_task = t; gp_current_task->state = RUNNING;` -/
def switchTo (t : Tid) : Kernel := (k.setCurrent t).setTaskState t .running

/-- Put back what `scheduler` took. -/
def putBack (t : Tid) : Except Fault Kernel := do
  return k.pushHead t (← readyAt (priority2order (k.tcb t).prio))

/-- The handler's choice when the null task runs. -/
def preemptNull : Kernel :=
  let (k', newTcb) := k.scheduler
  if newTcb ≠ tidNull then
    let k := k'.switchTo newTcb
    if (k.tcb newTcb).realTime then k.countExecution newTcb else k
  else k'

/-- The handler's choice when a real-time task runs. -/
def preemptRealTime : Except Fault Kernel := do
  let state := k.cur.state
  if state = .dormant ∨ state = .suspended ∨ state = .ready then
    let (k, newTcb) := k.scheduler
    let k := k.switchTo newTcb
    return if (k.tcb newTcb).realTime then k.countExecution newTcb else k
  else if state = .running then
    let (k, highestTask) := k.scheduler
    if (k.tcb highestTask).realTime then
      if (k.tcb highestTask).tskDeadline < k.cur.tskDeadline then
        let oldTcb := k.current
        let k ← k.pushTail oldTcb (← readyAt (priority2order (k.tcb oldTcb).prio))
        let k := k.setTaskState oldTcb .ready
        return (k.switchTo highestTask).countExecution highestTask
      else k.putBack highestTask
    else k.putBack highestTask
  else return k

/-- The handler's choice when any other task runs. -/
def preemptOther : Except Fault Kernel := do
  let (k, newTcb) := k.scheduler
  if newTcb ≠ tidNull then
    if (k.tcb newTcb).realTime then
      let oldTcb := k.current
      let k := k.setTaskState oldTcb .ready
      let k := k.pushHead oldTcb (← readyAt (priority2order (k.tcb oldTcb).prio))
      return (k.switchTo newTcb).countExecution newTcb
    else k.putBack newTcb
  else return k

/-- The second part of the handler. -/
def preempt : Except Fault Kernel :=
  if k.current = tidNull then .ok k.preemptNull
  else if k.cur.realTime then k.preemptRealTime
  else k.preemptOther

/-- `TIMER0_IRQHandler`. Its first access to `suspend_tsk` is a write through the HEAD. -/
def timer0IrqHandler (tc pc : Nat) : Except Fault Kernel := do
  let k := { k with timerCount := correctRound tc pc }
  match (k.queue .suspend).head with
  | none => .error .nullTcb
  | some tempTcb =>
      let k := k.setTaskState tempTcb .suspended
      let k ← releaseDue (2 ^ 32) k (some tempTcb)
      k.preempt

end Kernel

end Rtx
