/-
  File:      Rtx/Kern/System.lean
  Subject:   Initialisation, the dispatch of calls, and the runs of the system.

  An event of a run is a call of the running task, the second half of its `k_recv_msg` when it was
  switched out there, a timer interrupt, or a write of some task into the buffer of a task that is
  blocked in `k_send_msg`. `Legal` says which events can happen in a state; the null task only
  yields. `FreesOwn` and `FreesCleanly` are conditions on the blocks that tasks give back.
-/
import Rtx.Kern.Msg
import Rtx.Kern.Timer
import Rtx.Lib.Runs
import Rtx.Mem.Dealloc

namespace Rtx

namespace Kernel

/-! ## 1. Initialisation -/

/-- The kernel at reset: the global variables are zero. -/
def reset (m : Mem) (bytes : Nat → UInt8) : Kernel where
  tcb := fun _ => {
    msp := 0, priv := 0, tid := 0, prio := 0, state := .dormant, ptask := 0, psp := 0
    uStackSize := 0, pspBase := none, messageHeader := none, tskPeriod := 0, tskDeadline := 0
    realTime := false, nthExecution := 0, prev := none, next := none }
  queue := fun _ => ⟨none, none, 0⟩
  errno := .zero
  current := tidNull
  mailbox := fun _ => ⟨false, ⟨0, 0, 0, 0, 0, 0⟩⟩
  ram1 := m.ram1
  ram2 := m.ram2
  bytes
  timerCount := 0
  uartMailboxCollect := false
  pend := fun _ => none

variable (k : Kernel)

/-- The entry points of the system tasks, told apart. -/
def taskNull : Nat := 1
def taskCdisp : Nat := 2
def taskKcd : Nat := 3
def taskWallClock : Nat := 4

/-- `k_tsk_init_first`. -/
def tskInitFirst : TaskInit := ⟨taskNull, procStackSize, prioNull, 0⟩

/-- The console, the keyboard decoder and the wall clock, in the order of their creation. -/
def systemTasks : List (Tid × TaskInit) :=
  [(14, ⟨taskCdisp, procStackSize, high, 1⟩), (15, ⟨taskKcd, procStackSize, high, 0⟩),
    (13, ⟨taskWallClock, procStackSize, high, 0⟩)]

/-- Create the system tasks and queue them; a failure ends `k_tsk_init`. -/
def createSystemTasks : List (Tid × TaskInit) → Kernel → Except Fault (Kernel × Int)
  | [], k => .ok (k, rtxOk)
  | (t, info) :: rest, k => do
      let (k, r) ← k.kTskCreateNew info t
      if r = rtxOk then
        let k ← k.pushTail t (← readyAt (priority2order info.prio))
        createSystemTasks rest k
      else return (k, rtxErr)

/-- Create the boot tasks from slot `i` on and queue them; a task without memory is skipped. -/
def createBootTasks : Nat → List TaskInit → Kernel → Except Fault Kernel
  | _, [], k => .ok k
  | i, info :: rest, k => do
      let t ← tcbAt i
      let (k, r) ← k.kTskCreateNew info t
      if r = rtxOk then
        let k ← k.pushTail t (← readyAt (priority2order (k.tcb t).prio))
        createBootTasks (i + 1) rest k
      else createBootTasks (i + 1) rest k

/-- Set up `UART_MAILBOX` in a block of IRAM1. -/
def createUartMailbox : Except Fault (Kernel × Int) := do
  let (k, memAlloc) ← k.mpoolAlloc mpidIram1 uartMbxSize
  match memAlloc with
  | none => return (k.setErrno .ENOMEM, rtxErr)
  | some memAlloc =>
      return ({ k with
        toTasks := k.toTasks.setQueue (.waiting .uart) ⟨none, none, 0⟩
        mailbox := Function.update k.mailbox .uart ⟨true, Mb.create memAlloc uartMbxSize⟩ }, rtxOk)

/-- `k_tsk_init`. -/
def kTskInit (task : List TaskInit) : Except Fault (Kernel × Int) := do
  let k := { k with
    queue := fun q =>
      match q with
      | .ready _ | .suspend => ⟨none, none, 0⟩
      | .waiting m => k.queue (.waiting m) }
  if task.length > maxTasks - 3 then return (k, rtxErr)
  let k := { k with timerCount := 0 }
  let (k, r) ← k.kTskCreateNew tskInitFirst tidNull
  if r ≠ rtxOk then return (k, rtxErr)
  let k := k.setCurrent tidNull
  let (k, r) ← createSystemTasks systemTasks k
  if r ≠ rtxOk then return (k, rtxErr)
  let (k, r) ← k.createUartMailbox
  if r ≠ rtxOk then return (k, rtxErr)
  let k ← createBootTasks 1 task k
  return (k.runScheduled, rtxOk)

/-- `k_rtx_init`, the set-up of the UART apart. -/
def kRtxInit (memAlgo : Nat) (tasks : List TaskInit) : Except Fault (Kernel × Int) := do
  let k := k.setErrno .zero
  if memAlgo ≠ buddy ∨ tasks.length > maxTasks - 1 then return (k.setErrno .EINVAL, rtxErr)
  let (m, r) := kMemInit k.mem memAlgo
  let k := { k with ram1 := m.ram1, ram2 := m.ram2, errno := m.errno }
  if r ≠ rtxOk then return (k.setErrno .ENOMEM, rtxErr)
  let (k, r) ← k.kTskInit tasks
  if r ≠ rtxOk then return (k, rtxErr)
  return (k, rtxOk)

end Kernel

/-! ## 2. Calls -/

/-- A system call with its arguments. A pointer that the kernel only tests for NULL is a truth
    value; a receive buffer is its content, or `none` for NULL. -/
inductive Call where
  | memAlloc (size : Nat)
  | memDealloc (ptr : Option Nat)
  | tskCreate (taskEntry prio stackSize : Nat)
  | tskExit
  | tskYield
  | tskSetPrio (taskId prio : Nat)
  | tskGet (tid : Nat) (buffer : Bool) (msp psp : Nat)
  | tskGettid
  | tskLs (buf : Bool) (count : Nat)
  | mbxCreate (size : Nat)
  | mbxSend (receiverTid : Nat) (buf : Buf)
  | mbxSendNb (receiverTid : Nat) (buf : Buf)
  | mbxRecv (buf : Option Buf) (len : Nat)
  | mbxRecvNb (buf : Option Buf) (len : Nat)
  | mbxLs (buf : Bool) (count : Nat)
  | mbxGet (tid : Nat)
  | rtTskSet (tv : Timeval)
  | rtTskSusp
  | rtTskGet (tid : Nat) (buffer : Bool)

/-- What a call returns and stores for its caller. -/
inductive Reply where
  /-- The result is all. -/
  | result (r : Int)
  /-- `mem_alloc`: the block. -/
  | block (ptr : Option Nat)
  /-- `tsk_create`: the id stored. -/
  | created (r : Int) (task : Option Tid)
  /-- `tsk_get`. -/
  | info (r : Int) (i : Option TaskInfo)
  /-- The listing calls: the ids stored. -/
  | listed (r : Int) (ids : List Tid)
  /-- The receive calls: the buffer afterwards. -/
  | received (r : Int) (buf : Buf)
  /-- `rt_tsk_get`. -/
  | period (r : Int) (tv : Option Timeval)
  /-- The call does not return now. -/
  | none

namespace Reply

/-- The value returned in R0, if the call returns. -/
def ret : Reply → Option Int
  | .result r | .created r _ | .info r _ | .listed r _ | .received r _ | .period r _ => some r
  | .block _ | .none => .none

def ofReceived : Kernel.Received → Reply
  | some (r, buf) => .received r buf
  | .none => .none

end Reply

namespace Kernel

variable (k : Kernel)

/-- `SVC_Handler`. -/
def svcHandler : Call → Except Fault (Kernel × Reply)
  | .memAlloc size => do
      let (k, ptr) ← k.mpoolAlloc mpidIram1 size
      return (k, .block ptr)
  | .memDealloc ptr => do
      let (k, r) ← k.mpoolDealloc mpidIram1 ptr
      return (k, .result r)
  | .tskCreate taskEntry prio stackSize => do
      let (k, r, task) ← k.kTskCreate taskEntry prio stackSize
      return (k, .created r task)
  | .tskExit => .ok (k.kTskExit, .none)
  | .tskYield => do
      let (k, r) ← k.kTskYield
      return (k, .result r)
  | .tskSetPrio taskId prio => do
      let (k, r) ← k.kTskSetPrio taskId prio
      return (k, .result r)
  | .tskGet tid buffer msp psp => do
      let (k, r, i) ← k.kTskGet tid buffer msp psp
      return (k, .info r i)
  | .tskGettid => .ok (k, .result k.kTskGettid)
  | .tskLs buf count =>
      let (k, r, ids) := k.kTskLs buf count
      .ok (k, .listed r ids)
  | .mbxCreate size => do
      let (k, r) ← k.kMbxCreate size
      return (k, .result r)
  | .mbxSend receiverTid buf => do
      let (k, r) ← k.kSendMsg receiverTid buf
      return (k, .result r)
  | .mbxSendNb receiverTid buf => do
      let (k, r) ← k.kSendMsgNb receiverTid buf
      return (k, .result r)
  | .mbxRecv buf len => do
      let (k, x) ← k.kRecvMsg buf len
      return (k, .ofReceived x)
  | .mbxRecvNb buf len => do
      let (k, x) ← k.kRecvMsgNb buf len
      return (k, .ofReceived x)
  | .mbxLs buf count =>
      let (k, r, ids) := k.kMbxLs buf count
      .ok (k, .listed r ids)
  | .mbxGet tid => do
      let (k, r) ← k.kMbxGet tid
      return (k, .result r)
  | .rtTskSet tv => do
      let (k, r) ← k.kRtTskSet tv
      return (k, .result r)
  | .rtTskSusp => do
      let (k, r) ← k.kRtTskSusp
      return (k, .result r)
  | .rtTskGet tid buffer => do
      let (k, r, tv) ← k.kRtTskGet tid buffer
      return (k, .period r tv)

end Kernel

/-! ## 3. Runs -/

inductive Event where
  /-- A call of the running task. -/
  | call (c : Call)
  /-- The running task goes on in the `k_recv_msg` in which it was switched out. -/
  | resume
  /-- A timer interrupt that finds TIMER1's counters at these values. -/
  | timer (tc pc : Nat)
  /-- Somebody writes to the buffer of the blocked sender `t`. -/
  | overwrite (t : Tid) (buf : Buf)

namespace Kernel

variable (k : Kernel)

/-- The step of an event: the state and the reply to the call that returns, if one does. -/
def exec : Event → Except Fault (Kernel × Reply)
  | .call c => k.svcHandler c
  | .resume =>
      match k.pend k.current with
      | none => .ok (k, .none)
      | some p => do
          let (k, x) ← k.resumeRecv p
          return (k, .ofReceived x)
  | .timer tc pc => do
      let k ← k.timer0IrqHandler tc pc
      return (k, .none)
  | .overwrite t buf =>
      .ok (if (k.tcb t).state = .blkSend then
        k.modifyTcb t fun d => { d with messageHeader := some buf } else k, .none)

/-- The state after an event; `none` when the kernel is stopped by a fault. -/
def step (e : Event) : Option Kernel :=
  match k.exec e with
  | .ok (k, _) => some k
  | .error _ => none

/-- The events that can happen: a task that was switched out in `k_recv_msg` goes on there, and
    the null task only yields. -/
def Legal : Event → Prop
  | .call c => k.pend k.current = none ∧ (k.current = tidNull → c = .tskYield)
  | .resume => k.pend k.current ≠ none
  | .timer _ _ => k.pend k.current = none
  | .overwrite _ _ => k.pend k.current = none

/-- A block that a task gives back was handed out to a task: it is allocated, and it is not the
    kernel's own, the ring of `UART_MAILBOX`. (NULL and what is not in IRAM1 are refused.) -/
def FreesOwn : Event → Prop
  | .call (.memDealloc (some ptr)) => iram1.start ≤ ptr ∧ ptr ≤ iram1.stop →
      k.ram1.allocatedAt iram1 ptr = true ∧ ptr ≠ (k.ring .uart).memoryStart
  | _ => True

/-- And it merges cleanly. -/
def FreesCleanly : Event → Prop
  | .call (.memDealloc (some ptr)) => iram1.start ≤ ptr ∧ ptr ≤ iram1.stop →
      k.ram1.allocatedAt iram1 ptr = true ∧ ptr ≠ (k.ring .uart).memoryStart ∧
        k.ram1.freesCleanly iram1 ptr = true
  | _ => True

instance FreesOwn.decidable (e : Event) : Decidable (k.FreesOwn e) := by
  unfold FreesOwn
  split <;> infer_instance

instance FreesCleanly.decidable (e : Event) : Decidable (k.FreesCleanly e) := by
  unfold FreesCleanly
  split <;> infer_instance

end Kernel

/-- The states `k_rtx_init` leaves for at most 12 boot tasks of the priorities HIGH..LOWEST. -/
def Booted (k : Kernel) : Prop :=
  ∃ m bytes tasks, (Kernel.reset m bytes).kRtxInit buddy tasks = .ok (k, rtxOk) ∧
    tasks.length ≤ 12 ∧ ∀ t ∈ tasks, t.prio ∈ [high, medium, low, lowest]

end Rtx
