/-
  File:      Rtx/Kern/Task.lean
  Subject:   The scheduler and the task calls of k_task.c.

  `k_tsk_switch` saves the caller's context and goes on with that of `gp_current_task`; here it is
  the change of `current`. Nothing follows it in these calls but `return RTX_OK`.

  Kernel stacks are not kept; addresses in `g_k_stacks` count from its start.
-/
import Rtx.Kern.State

namespace Rtx

/-- `*(U32*) a = w;`, little-endian. -/
def putWord (bytes : Nat → UInt8) (a w : Nat) : Nat → UInt8 := fun i =>
  if a ≤ i ∧ i < a + 4 then UInt8.ofNat (w / 2 ^ (8 * (i - a))) else bytes i

/-- Push the words of a list on the stack that grows down from `sp`. -/
def pushWords (bytes : Nat → UInt8) (sp : Nat) : List Nat → Nat → UInt8
  | [] => bytes
  | w :: ws => pushWords (putWord bytes (sp - 4) w) (sp - 4) ws

/-- `INITIAL_xPSR`. -/
def initialXPSR : Nat := 0x01000000

namespace Kernel

variable (k : Kernel)

/-! ## 1. The scheduler -/

/-- The first ready queue that is not empty, from index `i` on. -/
def firstReady : List (Fin 5) → Option (Fin 5)
  | [] => none
  | i :: is => if (k.queue (.ready i)).head ≠ none then some i else firstReady is

/-- `scheduler`: the task is taken from its queue; the null task stands for none. -/
def scheduler : Kernel × Tid :=
  match k.firstReady [0, 1, 2, 3, 4] with
  | none => (k, tidNull)
  | some i => (k.popHead (.ready i), ((k.queue (.ready i)).head).getD tidNull)

/-- `gp_current_task = scheduler(); gp_current_task->state = RUNNING; k_tsk_switch(..);` -/
def runScheduled : Kernel :=
  let (k, t) := k.scheduler
  (k.setCurrent t).setTaskState t .running

/-- `k_tsk_run_new`: the state, and whether another task was switched to. -/
def kTskRunNew : Kernel × Bool :=
  if k.cur.realTime then (k, false)
  else
    let pTcbOld := k.current
    let (k, t) := k.scheduler
    let k := k.setCurrent t
    if t ≠ pTcbOld then
      let k := k.setTaskState t .running
      let state := (k.tcb pTcbOld).state
      if state ≠ .blkRecv ∧ state ≠ .blkSend ∧ state ≠ .suspended then
        (k.setTaskState pTcbOld .ready, true)
      else (k, true)
    else (k, false)

/-- `k_tsk_yield`. -/
def kTskYield : Except Fault (Kernel × Int) := do
  if k.cur.state ≠ .running then return (k, rtxErr)
  if k.cur.realTime then return (k, rtxOk)
  let currentPrio := k.cur.prio
  let currentOrder := priority2order currentPrio
  if currentOrder = -1 then return (k, rtxErr)
  if currentPrio ≠ prioNull then
    let k ← k.pushTail k.current (← readyAt currentOrder)
    return (k.kTskRunNew.1, rtxOk)
  return (k.kTskRunNew.1, rtxOk)

/-! ## 2. Creation -/

/-- `k_tsk_create_new(p_taskinfo, &g_tcbs[tid], tid)`. -/
def kTskCreateNew (taskinfo : TaskInit) (tid : Tid) : Except Fault (Kernel × Int) := do
  let some power := log2 taskinfo.uStackSize | throw .hang
  let uStackSize := power2 power
  let (k, pspBase) ← k.mpoolAlloc mpidIram2 uStackSize
  let k := k.modifyTcb tid fun d => { d with pspBase }
  match pspBase with
  | none => return (k.setErrno .ENOMEM, rtxErr)
  | some pspBase =>
      let usp := add32 pspBase uStackSize
      let k := k.modifyTcb tid fun d => { d with
        tid := tid.val
        state := .ready
        prio := taskinfo.prio
        priv := taskinfo.priv
        ptask := taskinfo.ptask
        realTime := false
        tskPeriod := 0
        tskDeadline := 0
        nthExecution := 0
        psp := usp
        uStackSize
        messageHeader := none }
      let k := { k with
        bytes := pushWords k.bytes usp [initialXPSR, taskinfo.ptask, 0, 0, 0, 0, 0, 0] }
      -- kLR, kR4-kR12, PSP and CONTROL go on the kernel stack
      let ksp := (tid.val + 1) * kernStackSize - 12 * 4
      return (k.modifyTcb tid fun d => { d with msp := ksp }, rtxOk)

/-- The loop of `k_tsk_create`: the first DORMANT TCB of 1..12, else 13. -/
def dormantSlot : Tid :=
  (([1, 2, 3, 4, 5, 6, 7, 8, 9, 10, 11, 12] : List Tid).find?
    fun t => (k.tcb t).state = .dormant).getD 13

/-- The end of `k_tsk_create`: the new task runs at once if it is above its creator, else it is
    queued. -/
def startNew (taskId : Tid) (priorityIndex : Int) : Except Fault Kernel := do
  if (k.tcb taskId).prio < k.cur.prio then
    let pOldTcb := k.current
    let k := (k.setCurrent taskId).setTaskState taskId .running
    return k.pushHead pOldTcb (← readyAt (priority2order (k.tcb pOldTcb).prio))
  else k.pushTail taskId (← readyAt priorityIndex)

/-- `k_tsk_create`: the result, and the id stored at `task`. -/
def kTskCreate (taskEntry prio stackSize : Nat) : Except Fault (Kernel × Int × Option Tid) := do
  let stackSizeValue := if stackSize < procStackSize then procStackSize else stackSize
  let taskId := k.dormantSlot
  if taskId = 13 ∧ (k.tcb taskId).state ≠ .dormant then
    return (k.setErrno .EAGAIN, rtxErr, none)
  let priorityIndex := priority2order prio
  if priorityIndex = -1 then return (k.setErrno .EINVAL, rtxErr, none)
  let (k, r) ← k.kTskCreateNew ⟨taskEntry, stackSizeValue, prio, 0⟩ taskId
  if r = rtxErr then return (k, rtxErr, none)
  let k ← k.startNew taskId priorityIndex
  return (k, rtxOk, some taskId)

/-- `k_tsk_exit`. The branch that frees the task is taken only if `gp_current_task` is NULL, and
    the missed deadline of a real-time task is only printed. -/
def kTskExit : Kernel := k.runScheduled

/-! ## 3. Priorities -/

/-- The task `k_tsk_set_prio` would rather run: the head of the first ready queue that is not
    empty, or the null task. -/
def highestTask : Tid :=
  match k.firstReady [0, 1, 2, 3, 4] with
  | none => tidNull
  | some i => ((k.queue (.ready i)).head).getD tidNull

def setPrio (t : Tid) (prio : Nat) : Kernel := k.modifyTcb t fun d => { d with prio }

/-- `k_tsk_set_prio` raises a task above its caller. -/
def promote (newTcb : Tid) (prio : Nat) : Except Fault Kernel := do
  let newTcbPrePrio := (k.tcb newTcb).prio
  let k := k.setPrio newTcb prio
  let pOldTcb := k.current
  let k := k.setCurrent newTcb
  let k ← k.popTask newTcb (← readyAt (priority2order newTcbPrePrio))
  let k := k.pushHead pOldTcb (← readyAt (priority2order (k.tcb pOldTcb).prio))
  return k.setTaskState newTcb .running

/-- `k_tsk_set_prio` on the caller, to a lower priority. -/
def demoteSelf (prio : Nat) : Except Fault Kernel := do
  let highestTask := k.highestTask
  let k := k.setPrio k.current prio
  if (k.tcb highestTask).prio ≤ prio then
    let pOldTcb := k.current
    let k := k.setCurrent highestTask
    let k := k.popHead (← readyAt (priority2order (k.tcb highestTask).prio))
    let k ← k.pushTail pOldTcb (← readyAt (priority2order prio))
    return k.setTaskState highestTask .running
  else return k

/-- `k_tsk_set_prio` on another task, to a priority not above the caller's. -/
def requeue (newTcb : Tid) (prio : Nat) : Except Fault Kernel := do
  let newTcbPrePrio := (k.tcb newTcb).prio
  let k := k.setPrio newTcb prio
  let k ← k.popTask newTcb (← readyAt (priority2order newTcbPrePrio))
  k.pushTail newTcb (← readyAt (priority2order prio))

/-- What `k_tsk_set_prio` does when its arguments are accepted. -/
def changePrio (newTcb : Tid) (taskId prio : Nat) : Except Fault Kernel := do
  let state := (k.tcb newTcb).state
  let k := if state = .blkRecv ∨ state = .blkSend then k.setPrio newTcb prio else k
  if (k.tcb newTcb).realTime then return k.setPrio newTcb prio
  else if (k.tcb newTcb).prio = prio then return k
  else if k.cur.prio > prio ∧ k.cur.tid ≠ taskId then k.promote newTcb prio
  else if k.cur.tid = taskId then
    if k.cur.prio < prio then k.demoteSelf prio else return k
  else k.requeue newTcb prio

/-- `k_tsk_set_prio`. -/
def kTskSetPrio (taskId prio : Nat) : Except Fault (Kernel × Int) := do
  let newPrio := priority2order prio
  if taskId > maxTasks - 1 ∨ newPrio > 5 ∨ newPrio < 0 then
    return (k.setErrno .EINVAL, rtxErr)
  let newTcb ← tcbAt taskId
  if (k.tcb newTcb).prio = prioNull ∨ prio = prioNull then
    return (k.setErrno .EINVAL, rtxErr)
  if (k.cur.priv = 0 ∧ (k.tcb newTcb).priv = 1) ∨ (prio ≠ prioNull ∧ taskId = 0) ∨
      (prio = prioNull ∧ taskId ≠ 0) ∨ (k.tcb newTcb).state = .dormant then
    return (k.setErrno .EPERM, rtxErr)
  if (k.tcb newTcb).realTime = true ∧ prio ≠ prioRt then
    return (k.setErrno .EPERM, rtxErr)
  if (k.tcb newTcb).realTime = false ∧ prio = prioRt then
    return (k.setErrno .EPERM, rtxErr)
  let k ← k.changePrio newTcb taskId prio
  return (k, rtxOk)

/-! ## 4. Questions -/

/-- `k_tsk_get`; `msp` and `psp` are the stack pointers of the processor at the call. -/
def kTskGet (tid : Nat) (buffer : Bool) (msp psp : Nat) :
    Except Fault (Kernel × Int × Option TaskInfo) := do
  if buffer = false then return (k.setErrno .EFAULT, rtxErr, none)
  if tid > maxTasks - 1 then return (k.setErrno .EINVAL, rtxErr, none)
  let thisTcb := k.tcb (← tcbAt tid)
  let kSpBase := (tid + 1) * kernStackSize
  return (k, rtxOk, some {
    tid
    prio := thisTcb.prio
    priv := thisTcb.priv
    state := thisTcb.state
    kSp := if k.cur.tid = tid then msp else thisTcb.msp
    uSp := if k.cur.tid = tid then psp else thisTcb.psp
    kSpBase
    uSpBase := thisTcb.pspBase
    uStackSize := thisTcb.uStackSize
    kStackSize := kernStackSize
    ptask := if thisTcb.priv = 1 then kSpBase else thisTcb.ptask })

/-- `k_tsk_gettid`. -/
def kTskGettid : Nat := k.cur.tid

/-- The loop of `k_tsk_ls` and `k_mbx_ls` from id `i` on: the ids stored so far and the result. -/
def lsLoop (p : Tid → Bool) (count : Nat) : List Tid → List Tid → List Tid × Nat
  | [], stored => (stored, stored.length)
  | i :: is, stored =>
      let stored := if p i then stored ++ [i] else stored
      if stored.length = count then (stored, count) else lsLoop p count is stored

/-- `k_tsk_ls`: the result, and the ids stored at `buf`. -/
def kTskLs (buf : Bool) (count : Nat) : Kernel × Int × List Tid :=
  if buf = false then (k.setErrno .EFAULT, rtxErr, [])
  else
    let (stored, r) := lsLoop (fun t => (k.tcb t).state ≠ .dormant) count (List.finRange 16) []
    (k, r, stored)

/-! ## 5. Real-time tasks -/

/-- `k_rt_tsk_set`. -/
def kRtTskSet (tv : Timeval) : Except Fault (Kernel × Int) := do
  if k.cur.realTime then return (k.setErrno .EPERM, rtxErr)
  let setPeriod := (tv.sec * 1000000 + tv.usec) % 2 ^ 32
  if setPeriod = 0 ∧ setPeriod % 2500 ≠ 0 then return (k.setErrno .EINVAL, rtxErr)
  let periodRound := setPeriod / 500
  let k := k.modifyTcb k.current fun d => { d with
    realTime := true
    tskPeriod := periodRound
    tskDeadline := add32 (add32 k.timerCount 1) periodRound
    prio := prioRt
    state := .ready }
  let k ← k.pushTail k.current (← readyAt (priority2order prioRt))
  return (k.runScheduled, rtxOk)

/-- The new deadline of `k_rt_tsk_susp`. A division by zero gives zero on this processor. -/
def nextDeadline (deadline period : Nat) : Nat :=
  if deadline < k.timerCount then
    let missedPeriod := sub32 k.timerCount deadline / period
    add32 deadline ((missedPeriod + 1) * period % 2 ^ 32)
  else add32 deadline period

/-- `k_rt_tsk_susp`. -/
def kRtTskSusp : Except Fault (Kernel × Int) := do
  if k.cur.realTime = false then return (k.setErrno .EPERM, rtxErr)
  let k := k.setTaskState k.current .suspended
  let k := k.modifyTcb k.current fun d => { d with
    tskDeadline := k.nextDeadline d.tskDeadline d.tskPeriod }
  let k ← k.pushTail k.current .suspend
  return (k.runScheduled, rtxOk)

/-- `k_rt_tsk_get`. -/
def kRtTskGet (tid : Nat) (buffer : Bool) : Except Fault (Kernel × Int × Option Timeval) := do
  if buffer = false then return (k, rtxErr, none)
  let pointTask := k.tcb (← tcbAt tid)
  if pointTask.realTime = false then return (k.setErrno .EINVAL, rtxErr, none)
  if k.cur.realTime = false then return (k.setErrno .EPERM, rtxErr, none)
  let tskPeriod := pointTask.tskPeriod
  let tskSec := tskPeriod * 500 % 2 ^ 32 % 1000000
  let tskUsec := sub32 (tskPeriod * 500 % 2 ^ 32) (tskSec * 1000000 % 2 ^ 32)
  return (k, rtxOk, some ⟨tskSec, tskUsec⟩)

end Kernel

end Rtx
