/-
  File:      Rtx/User/Kcd.lean
  Subject:   The keyboard command decoder task.

  A turn of the loop of `task_kcd`, from the return of `recv_msg` on (`handle`). The nodes of the
  registry and of the input queue are in blocks of their own, numbered in the order of their
  allocation; `blocks` has their addresses. A block is another one than all before it, as long as
  it is not freed.

  Not followed are the accesses that leave their object, whose effect depends on the layout of the
  memory: `display_buffer` has room for one character and gets texts of 17 and 19, `tsk_ls` and
  `mbx_ls` store up to 16 ids behind the one of `tsk_nd_buffer`, and a command length of more than
  64 reads behind `input`, whose bytes there are taken as they are.
-/
import Mathlib.Data.Nat.Digits.Defs
import Rtx.Lib.Strung
import Rtx.User.Request

namespace Rtx

open Lib

/-! ## 1. Data -/

/-- A `CMDNODE` without its link. -/
structure Cmd where
  command : UInt8
  commandHandlerTid : UInt8
  deriving DecidableEq, Repr

/-- The variables of `task_kcd`. A pointer to a node is the number of its block. -/
structure Kcd where
  cmdRegList : Strung Nat Cmd
  inputQueue : Strung Nat UInt8
  input : Buf
  cmdFound : Bool
  cmdInvalid : Bool
  cmdLength : Nat
  blocks : List Nat

/-- A pointer that has to lead to a node. -/
def live {α : Type} : Option α → UserM α
  | none => .fail .dangling
  | some a => .ret a

/-- A message of the KCD to the console. -/
def consoleText (text : List UInt8) : UserM Int :=
  Sys.sendMsg tidCon (Buf.ofMsg (message (UInt8.ofNat tidKcd) display text))

/-! ## 2. The listing commands -/

/-- The decimal digits of a number, none for zero. -/
def decimal (n : Nat) : List UInt8 :=
  (Nat.digits 10 n).reverse.map fun d => UInt8.ofNat (d + (char '0').toNat)

/-- `tid_string`. -/
def tidString (tid : UInt8) : List UInt8 := if tid = 0 then chars "0" else decimal tid.toNat

/-- `tsk_state_header_string`, as many characters as the code copies. -/
def taskStateHeader : TaskState → List UInt8
  | .ready => chars " State: READY"
  | .running => chars " State: RUNNING"
  | .blkSend => chars " State: BLK_SEND"
  | .blkRecv => chars " State: BLK_RECV"
  | .suspended => chars " State: SUSPENDED"
  | .dormant => chars " State: UNSPECIFIED"

/-- The same of the other listing command; a blank is left out at BLK_RECV. -/
def mailboxStateHeader : TaskState → List UInt8
  | .ready => chars " State: READY Free Space: "
  | .running => chars " State: RUNNING Free Space: "
  | .blkSend => chars " State: BLK_SEND Free Space: "
  | .blkRecv => chars " State: BLK_RECV Free Space:"
  | .suspended => chars " State: SUSPENDED Free Space: "
  | .dormant => chars " State: UNSPECIFIED\n"

/-- The line for one task; `tskInfoString` is the block for its text. -/
def listTask (tskInfoString : Option Nat) (currentTid : UInt8) : UserM Unit := do
  let (retGet, state) ← Sys.tskGet currentTid.toNat
  if retGet ≠ rtxOk then return ()
  let digits := tidString currentTid
  let tidBlock ← nonNull (← Sys.memAlloc digits.length)
  let _ ← nonNull tskInfoString
  let text := chars "Task ID:" ++ digits ++ taskStateHeader state ++ chars "\r\n"
  let cmdBuffer ← nonNull (← Sys.memAlloc (msgHdrSize + text.length))
  let _ ← consoleText text
  let _ ← Sys.memDealloc (some tidBlock)
  let _ ← Sys.memDealloc (some cmdBuffer)
  return ()

/-- The line for one mailbox; both blocks are used for all lines. -/
def listMailbox (tskInfoString cmdBuffer : Option Nat) (currentTid : UInt8) : UserM Unit := do
  let (retGet, state) ← Sys.tskGet currentTid.toNat
  if retGet ≠ rtxOk then return ()
  let mbxFreeSpace ← Sys.mbxGet currentTid.toNat
  if mbxFreeSpace < 0 then return ()
  let digits := tidString currentTid
  let tidBlock ← nonNull (← Sys.memAlloc digits.length)
  let space := decimal mbxFreeSpace.toNat
  let spaceBlock ← Sys.memAlloc space.length
  if space ≠ [] ∧ spaceBlock = none then Proc.fail .nullPtr
  let _ ← nonNull tskInfoString
  let text := chars "Task ID:" ++ digits ++ mailboxStateHeader state ++ space ++ chars "\r\n"
  let _ ← nonNull cmdBuffer
  let _ ← consoleText text
  let _ ← Sys.memDealloc (some tidBlock)
  let _ ← Sys.memDealloc spaceBlock
  return ()

/-- The loop over the ids that a listing call stored, from the `i`-th on. -/
def forIds (ids : Buf) (body : UInt8 → UserM Unit) : Nat → Nat → UserM Unit
  | 0, _ => return ()
  | n + 1, i => do
      body (ids i)
      forIds ids body n (i + 1)

/-- The command %LT. -/
def listTasks : UserM Unit := do
  let (tskNdCount, tskNdBuffer) ← Sys.tskLs maxTasks
  if tskNdCount = -1 then return ()
  let tskInfoString ← Sys.memAlloc (9 + 2 + 20 + 1)
  forIds tskNdBuffer (listTask tskInfoString) tskNdCount.toNat 0
  let _ ← Sys.memDealloc tskInfoString
  return ()

/-- The command %LM. -/
def listMailboxes : UserM Unit := do
  let (mbxNdCount, mbxNdBuffer) ← Sys.mbxLs maxTasks
  if mbxNdCount = -1 then return ()
  let tskInfoString ← Sys.memAlloc (9 + 2 + 30 + 10 + 2)
  let cmdBuffer ← Sys.memAlloc (msgHdrSize + (8 + 2 + 30 + 10 + 2))
  forIds mbxNdBuffer (listMailbox tskInfoString cmdBuffer) mbxNdCount.toNat 0
  let _ ← Sys.memDealloc tskInfoString
  let _ ← Sys.memDealloc cmdBuffer
  return ()

/-! ## 3. The registry -/

namespace Kcd

/-- The variables before the loop; what the block `input` holds is not known. -/
def init (input : Buf) : Kcd where
  cmdRegList := .empty
  inputQueue := .empty
  input
  cmdFound := false
  cmdInvalid := false
  cmdLength := 0
  blocks := []

variable (s : Kcd)

/-- The loop over the registry and the test behind it: the node it stops at, if it has the command.
    An assignment made at a match in the loop is made again by the test. -/
def findCmd (head : Nat) (command : UInt8) : UserM (Option (Nat × Cmd)) := do
  let node ← live (s.cmdRegList.stop (fun c => c.command = command) (s.blocks.length + 1) head)
  return if node.2.command = command then some node else none

/-- A registration. -/
def register (buf : Buf) : UserM Kcd := do
  let cmdId := buf.last
  let senderTid := buf 4
  let found ←
    match s.cmdRegList.head with
    | none => pure none
    | some head => s.findCmd head cmdId
  match found with
  | some (node, _) =>
      return { s with
        cmdRegList := s.cmdRegList.modify node fun c => { c with commandHandlerTid := senderTid } }
  | none =>
      match ← Sys.memAlloc 8 with
      | none => return s
      | some cmdReg =>
          let cmdRegList ← live (s.cmdRegList.append s.blocks.length ⟨cmdId, senderTid⟩)
          return { s with cmdRegList, blocks := s.blocks ++ [cmdReg] }

/-- The handler of a command, by the loop of the dispatch. -/
def findHandler (command : UInt8) : UserM (Option UInt8) := do
  let head ← nonNull s.cmdRegList.head
  let found ← s.findCmd head command
  return found.map fun node => node.2.commandHandlerTid

/-! ## 4. A line -/

/-- Take the first character out of the queue and free its node. -/
def popChar : UserM (UInt8 × Kcd) := do
  let (node, character, inputQueue) ← live s.inputQueue.popHead
  let _ ← Sys.memDealloc s.blocks[node]?
  return (character, { s with inputQueue })

/-- The commands that others handle. -/
def ordinary : UserM Kcd := do
  let found ← s.findHandler (s.input 0)
  let cmdHandlerId := (found.getD 0).toNat
  let s := if found.isSome then { s with cmdFound := true } else s
  let s ←
    if s.cmdFound then do
      let (_, state) ← Sys.tskGet cmdHandlerId
      pure (if state = .dormant then { s with cmdFound := false } else s)
    else pure s
  if s.cmdFound then
    let cmdBuffer ← nonNull (← Sys.memAlloc (add32 msgHdrSize s.cmdLength))
    -- no character is copied when the length, an int, is negative
    let data := (List.range (if s.cmdLength < 2 ^ 31 then s.cmdLength else 0)).map s.input
    let _ ← Sys.sendMsg cmdHandlerId (Buf.ofMsg
      (header (msgHdrSize + s.cmdLength) (UInt8.ofNat tidKcd) kcdCmd ++ data))
    let _ ← Sys.memDealloc (some cmdBuffer)
    return { s with cmdFound := false, cmdLength := 0 }
  else
    let _ ← consoleText (chars "Command not found\r\n")
    return { s with cmdLength := 0 }

/-- The command in `input`. -/
def command : UserM Kcd := do
  if s.input 0 = char 'L' ∧ s.input 1 = char 'T' then
    listTasks
    return s
  if s.input 0 = char 'L' ∧ s.input 1 = char 'M' then
    listMailboxes
    return s
  s.ordinary

/-- The loop that moves at most `n` characters from the queue to `input`, from the `i`-th place
    on. -/
def fill (s : Kcd) : Nat → Nat → UserM Kcd
  | 0, _ => return s
  | n + 1, i => do
      let (character, s) ← s.popChar
      let s := { s with
        input := Function.update s.input i character
        cmdLength := add32 s.cmdLength 1 }
      if s.inputQueue.head = none then
        return { s with inputQueue := { s.inputQueue with tail := none } }
      fill s n (i + 1)

/-- A line that starts with '%', without it. -/
def takeCommand : UserM Kcd := do
  let s ← s.fill kcdCmdBufSize 0
  let s := if s.inputQueue.head ≠ none then { s with cmdInvalid := true } else s
  if s.cmdInvalid then return s
  s.command

/-- The line in the queue. -/
def readLine : UserM Kcd := do
  match s.inputQueue.head with
  | none => return s
  | some head =>
      let first ← live (s.inputQueue.node head)
      if first.val = char '%' then
        let (_, s) ← s.popChar
        if s.inputQueue.head = none then return s
        s.takeCommand
      else return { s with cmdInvalid := true }

/-- The loop that empties the queue. -/
def discard (s : Kcd) : Nat → UserM Kcd
  | 0 => .fail .dangling
  | n + 1 => do
      if s.inputQueue.head = none then return s
      let (_, s) ← s.popChar
      discard s n

/-- Enter: the line is read, and thrown away when it is invalid. -/
def enter : UserM Kcd := do
  let s ← s.readLine
  if s.cmdInvalid then
    let s ← s.discard (s.blocks.length + 1)
    let _ ← consoleText (chars "Invalid command\r\n")
    return { s with cmdInvalid := false }
  return s

/-- A key. -/
def key (character : UInt8) : UserM Kcd := do
  let _ ← consoleText [character]
  if character = char '\r' then s.enter
  else
    match ← Sys.memAlloc 8 with
    | none => return s
    | some inputChar =>
        let inputQueue ← live (s.inputQueue.append s.blocks.length character)
        return { s with inputQueue, blocks := s.blocks ++ [inputChar] }

/-- A turn of the loop. -/
def handle (buf : Buf) : UserM Kcd :=
  if buf.type = kcdReg then s.register buf
  else if buf.type = keyIn then s.key buf.last
  else return s

end Kcd

end Rtx
