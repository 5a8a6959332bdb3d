/-
  File:      Rtx/Kern/Msg.lean
  Subject:   The mailbox calls of k_msg.c.

  `k_send_msg` and `k_send_msg_nb` begin with the same checks (`checkSend`) and deliver a message
  in the same way (`deliver`); `k_recv_msg` and `k_recv_msg_nb` end with the same loop
  (`releaseLoop`).

  A task that finds its mailbox empty in `k_recv_msg` is switched out in the middle of the call;
  `recvRest` is what follows when it runs again. A real-time task is not switched out and goes on
  at once.
-/
import Rtx.Kern.Task

namespace Rtx

namespace Kernel

variable (k : Kernel)

/-! ## 1. Creation -/

/-- `k_mbx_create`. -/
def kMbxCreate (size : Nat) : Except Fault (Kernel × Int) := do
  let currentTid := k.cur.tid
  let m ← mbxAt currentTid
  if (k.mailbox m).active then return (k.setErrno .EEXIST, rtxErr)
  if size < msgHdrSize then return (k.setErrno .EINVAL, rtxErr)
  let (k, memAlloc) ← k.mpoolAlloc mpidIram2 size
  match memAlloc with
  | none => return (k.setErrno .ENOMEM, rtxErr)
  | some memAlloc =>
      let k := { k with
        toTasks := k.toTasks.setQueue (.waiting m) ⟨none, none, 0⟩
        mailbox := Function.update k.mailbox m ⟨true, Mb.create memAlloc size⟩ }
      return (k, currentTid)

/-! ## 2. Sending -/

/-- The checks of both send calls: the mailbox, or the error. -/
def checkSend (receiverTid : Nat) (buf : Buf) : Except Fault (Except Errno MbxId) := do
  if receiverTid ≠ tidUart then
    if (k.tcb (← tcbAt receiverTid)).state = .dormant then return .error .EINVAL
  if buf.length < msgHdrSize then return .error .EINVAL
  let m ← if receiverTid = tidUart then pure .uart else mbxAt receiverTid
  if (k.mailbox m).active = false then return .error .ENOENT
  if buf.length > (k.ring m).capacity then return .error .EMSGSIZE
  return .ok m

/-- Wake the owner `t` of a mailbox if it waits for a message; `preempt` is the second condition
    under which the sender makes way for it. -/
def wake (t : Tid) (preempt : Bool) : Except Fault Kernel := do
  if (k.tcb t).state = .blkRecv then
    let k ← k.pushTail t (← readyAt (priority2order (k.tcb t).prio))
    let k := k.setTaskState t .ready
    if (k.tcb t).prio < k.cur.prio ∧ preempt = true then
      let k := k.pushHead k.current (← readyAt (priority2order k.cur.prio))
      return k.kTskRunNew.1
    else return k
  else return k

/-- Put the message in the ring and wake the receiver. -/
def deliver (m : MbxId) (buf : Buf) (preempt : Bool) : Except Fault Kernel := do
  let k ← k.pushBuffer m buf
  match m with
  | .uart => return k
  | .task t => k.wake t preempt

/-- The sender waits until there is room. -/
def blockSend (m : MbxId) (buf : Buf) : Except Fault Kernel := do
  let k := k.modifyTcb k.current fun d => { d with state := .blkSend, messageHeader := some buf }
  let k ← k.pushTail k.current (.waiting m)
  return k.kTskRunNew.1

/-- The message fits, and nobody waits before its sender. -/
def admits (m : MbxId) (buf : Buf) : Bool :=
  (k.ring m).canFit buf.length = 1 && (k.queue (.waiting m)).currentSize = 0

/-- `k_send_msg`. -/
def kSendMsg (receiverTid : Nat) (buf : Buf) : Except Fault (Kernel × Int) := do
  match ← k.checkSend receiverTid buf with
  | .error e => return (k.setErrno e, rtxErr)
  | .ok m =>
      let k ← if k.admits m buf then k.deliver m buf true else k.blockSend m buf
      return (k, rtxOk)

/-- `k_send_msg_nb`. -/
def kSendMsgNb (receiverTid : Nat) (buf : Buf) : Except Fault (Kernel × Int) := do
  match ← k.checkSend receiverTid buf with
  | .error e => return (k.setErrno e, rtxErr)
  | .ok m =>
      if k.admits m buf then
        let k ← k.deliver m buf (buf.senderTid ≠ tidUart)
        return (k, rtxOk)
      else return (k.setErrno .ENOSPC, rtxErr)

/-! ## 3. Receiving -/

/-- The mailbox a receive reads: the caller's, or that of the UART inside its interrupt. -/
def recvMbx : Except Fault MbxId :=
  if k.uartMailboxCollect then .ok .uart else mbxAt k.cur.tid

/-- The loop of the receive calls: as long as the message of the first waiting sender fits, it goes
    into the ring and the sender becomes ready. Every round makes the waiting list shorter, so
    its size bounds the number of rounds. -/
def releaseLoop (m : MbxId) : Nat → Kernel → Except Fault Kernel
  | 0, k => .ok k
  | n + 1, k =>
      match (k.queue (.waiting m)).head with
      | none => .ok k
      | some firstWaitTsk =>
          match (k.tcb firstWaitTsk).messageHeader with
          | none => .error .nullMsg
          | some buf =>
              if (k.ring m).canFit buf.length ≠ 1 then .ok k
              else do
                let k := k.popHead (.waiting m)
                let k ← k.pushBuffer m buf
                let k ← k.pushTail firstWaitTsk
                  (← readyAt (priority2order (k.tcb firstWaitTsk).prio))
                releaseLoop m n k

/-- The loop, from its first round. -/
def release (m : MbxId) : Except Fault Kernel :=
  releaseLoop m (k.queue (.waiting m)).currentSize k

/-- The receiver goes back to the head of its queue, and the scheduler decides. -/
def giveWay : Except Fault Kernel := do
  let k := k.pushHead k.current (← readyAt (priority2order k.cur.prio))
  return k.kTskRunNew.1

/-- `k_recv_msg` behind the switch of a receiver that found its mailbox empty: the state and the
    receiver's buffer. -/
def recvRest (m : MbxId) (buf : Buf) (len : Nat) : Except Fault (Kernel × Buf) := do
  let (k, buf, _) ← k.popBuffer m buf len
  let k ← k.release m
  return (← k.giveWay, buf)

/-- What a receive returns to its caller: the result and the buffer, if it returns at once. -/
abbrev Received := Option (Int × Buf)

/-- `k_recv_msg`; `none` is a NULL buffer. -/
def kRecvMsg (buf : Option Buf) (len : Nat) : Except Fault (Kernel × Received) := do
  let some buf := buf | return (k.setErrno .EFAULT, some (rtxErr, fun _ => 0))
  let m ← k.recvMbx
  if (k.mailbox m).active = false then return (k.setErrno .ENOENT, some (rtxErr, buf))
  let (k, buf, check) ← k.popBuffer m buf len
  if check = -1 then return (k.setErrno .ENOSPC, some (rtxErr, buf))
  if check = 0 then
    let t := k.current
    let (k, switched) := (k.setTaskState t .blkRecv).kTskRunNew
    if switched then
      return ({ k with pend := Function.update k.pend t (some ⟨m, buf, len⟩) }, none)
    else
      let (k, buf) ← k.recvRest m buf len
      return (k, some (rtxOk, buf))
  else
    let k ← k.release m
    return (← k.giveWay, some (rtxOk, buf))

/-- The second half of a `k_recv_msg` that was switched out. -/
def resumeRecv (p : Pending) : Except Fault (Kernel × Received) := do
  let k := { k with pend := Function.update k.pend k.current none }
  let (k, buf) ← k.recvRest p.mbx p.buf p.len
  return (k, some (rtxOk, buf))

/-- `k_recv_msg_nb`. -/
def kRecvMsgNb (buf : Option Buf) (len : Nat) : Except Fault (Kernel × Received) := do
  let some buf := buf | return (k.setErrno .EFAULT, some (rtxErr, fun _ => 0))
  let m ← k.recvMbx
  if (k.mailbox m).active = false then return (k.setErrno .ENOENT, some (rtxErr, buf))
  if (k.ring m).currentSize = 0 then return (k.setErrno .ENOMSG, some (rtxErr, buf))
  let (k, buf, check) ← k.popBuffer m buf len
  if check = -1 then return (k.setErrno .ENOSPC, some (rtxErr, buf))
  let k ← k.release m
  if k.uartMailboxCollect then return (k, some (rtxOk, buf))
  return (← k.giveWay, some (rtxOk, buf))

/-! ## 4. Questions -/

/-- `k_mbx_ls`. -/
def kMbxLs (buf : Bool) (count : Nat) : Kernel × Int × List Tid :=
  if buf = false then (k.setErrno .EFAULT, rtxErr, [])
  else
    let (stored, r) := lsLoop (fun t => (k.tcb t).state ≠ .dormant && (k.mailbox (.task t)).active)
      count (List.finRange 16) []
    (k, r, stored)

/-- `k_mbx_get`. -/
def kMbxGet (tid : Nat) : Except Fault (Kernel × Int) := do
  if (k.tcb (← tcbAt tid)).state = .dormant then return (k.setErrno .ENOENT, rtxErr)
  let m ← mbxAt tid
  if (k.mailbox m).active = false then return (k.setErrno .ENOENT, rtxErr)
  return (k, sub32 (k.ring m).capacity (k.ring m).currentSize)

end Kernel

end Rtx
