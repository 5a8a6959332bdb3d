/-
  File:      Rtx/Kern/Uart.lean
  Subject:   UART0_IRQHandler of uart_irq.c: the console.

  A key goes to the KCD. When the transmit register is empty the handler takes the oldest message
  of the UART's mailbox into a block of the pool, copies its data to `g_buffer` and writes that to
  the register. Neither the result of the receive nor the size of `g_buffer` is looked at.

  The block comes with the links of the node it was in its free list, and behind them whatever its
  last user left: its first word, which is where a message has its length, is NULL. The console is
  fast enough: the loops on `LSR` end.
-/
import Rtx.Kern.Blocks
import Rtx.Kern.Transfer
import Rtx.User.Request

namespace Rtx

open Lib

/-! ## 1. The handler -/

/-- `sizeof(g_buffer)`. -/
def gBufferSize : Nat := 47

/-- The global variables of uart_irq.c, `gp_buffer` as an index of `g_buffer`, and the registers of
    the UART that are written: `thr` is all that was written to THR. -/
structure Uart where
  gBuffer : Nat → UInt8
  gpBuffer : Nat
  gSendChar : UInt8
  gCharIn : UInt8
  gCharOut : UInt8
  msgIndex : Nat
  thr : List UInt8
  ierThre : Bool

/-- What stops the handler. -/
inductive UartFault where
  /-- A call of the kernel does. -/
  | kernel (e : Fault)
  /-- The header is read at NULL. -/
  | nullBuf
  /-- `mem_cpy` writes behind `g_buffer`. -/
  | overrun
  deriving DecidableEq, Repr

namespace Uart

/-- The variables as they are initialized; `uart_irq_init` has written a zero to THR. -/
def init : Uart where
  gBuffer := Buf.ofMsg (chars "Task ID  State: SUSPENDED Free Space:         ")
  gpBuffer := 0
  gSendChar := 0
  gCharIn := 0
  gCharOut := 0
  msgIndex := 0
  thr := [0]
  ierThre := false

/-- A call of the kernel. -/
def call {α : Type} (x : Except Fault α) : Except UartFault α := x.mapError .kernel

theorem post_call {α : Type} {x : Except Fault α} {P : α → Prop} (h : Post x P) :
    Post (call x) P := by
  cases x with
  | ok a => exact h
  | error e => exact trivial

/-- The branch for a received character `rbr`. -/
def received (k : Kernel) (u : Uart) (rbr : UInt8) : Except UartFault (Kernel × Uart) := do
  let key := Buf.ofMsg (message (UInt8.ofNat tidUart) keyIn [rbr])
  let (k, _) ← call (k.kSendMsgNb tidKcd key)
  return (k, { u with gCharIn := rbr, gSendChar := 1 })

/-- The receive into the block. The result is for a text of the debugger only: what is in the block
    afterwards is taken for a message. -/
def collect (k : Kernel) (buf : Option Buf) : Except UartFault (Kernel × Buf) := do
  let (k, r) ← call (k.kRecvMsgNb buf uartMbxSize)
  match buf with
  | none => throw .nullBuf
  | some buf => return (k, (r.map Prod.snd).getD buf)

/-- `mem_cpy(gp_buffer, message, n)`, where the message is behind the header at `buf`. -/
def copy (u : Uart) (buf : Buf) (n : Nat) : Except UartFault Uart :=
  if u.gpBuffer + n ≤ gBufferSize then
    .ok { u with gBuffer := memCpy u.gBuffer u.gpBuffer buf msgHdrSize n }
  else .error .overrun

/-- The loop that writes to THR, with the number of its rounds. -/
def transmitLoop : Nat → Uart → Uart
  | 0, u => u
  | n + 1, u => transmitLoop n { u with
      gCharOut := u.gBuffer u.gpBuffer
      thr := u.thr ++ [u.gBuffer u.gpBuffer]
      msgIndex := u.msgIndex + 1
      gpBuffer := u.gpBuffer + 1 }

/-- The loop from its first round, as long as `msg_index` is below `msg_length`. -/
def transmit (u : Uart) (msgLength : Nat) : Uart := transmitLoop (msgLength - u.msgIndex) u

/-- What follows the loop. -/
def finish (u : Uart) : Uart :=
  { u with ierThre := !u.ierThre, thr := u.thr ++ [0], gSendChar := 0, msgIndex := 0, gpBuffer := 0 }

/-- The branch for an empty transmit register. Where `msg_length` is negative as an int, `mem_cpy`
    takes it for a large size_t. -/
def thre (k : Kernel) (u : Uart) (buf : Option Buf) : Except UartFault (Kernel × Uart) := do
  let k := { k with uartMailboxCollect := true }
  let (k, u, msgLength) ←
    if u.msgIndex = 0 then do
      let (k, buf) ← collect k buf
      let msgLength := sub32 buf.length msgHdrSize
      let u ← u.copy buf msgLength
      pure (k, u, msgLength)
    else pure (k, u, 0)
  let k := { k with uartMailboxCollect := false }
  return (k, finish (u.transmit msgLength))

def iirRda : UInt8 := 2
def iirThre : UInt8 := 1

/-- What is in the block at `a` when it has just been allocated: the two links of a node, and `rest`
    behind them. -/
def fresh (k : Kernel) (rest : Buf) (a : Nat) : Buf :=
  putWord (putWord rest 0 ((k.ram1.mem a).prev.getD 0)) 4 ((k.ram1.mem a).next.getD 0)

/-- `UART0_IRQHandler`, for the registers IIR and RBR and what the last user of its block has left
    there. An interrupt of another kind does not give the block back. -/
def uart0IrqHandler (k : Kernel) (u : Uart) (iir rbr : UInt8) (rest : Buf) :
    Except UartFault (Kernel × Uart) := do
  let (k, ptr) ← call (k.mpoolAlloc mpidIram1 uartMbxSize)
  let buf := ptr.map (fresh k rest)
  let iirIntId := iir >>> 1
  if iirIntId &&& iirRda ≠ 0 then
    let (k, u) ← received k u rbr
    let (k, _) ← call (k.mpoolDealloc mpidIram1 ptr)
    return (k, u)
  else if iirIntId &&& iirThre ≠ 0 then
    let (k, u) ← thre k u buf
    let (k, _) ← call (k.mpoolDealloc mpidIram1 ptr)
    return (k, u)
  else return (k, u)

end Uart

/-! ## 2. The receive of the handler -/

namespace Kernel

/-- `g_uart_mailbox_collect`. -/
def setCollect (k : Kernel) (b : Bool) : Kernel := { k with uartMailboxCollect := b }

variable {k k₁ : Kernel} {m : MbxId} {buf : Buf} {b : Bool}

theorem pushBuffer_setCollect (hk : k.pushBuffer m buf = .ok k₁) :
    (k.setCollect b).pushBuffer m buf = .ok (k₁.setCollect b) := by
  obtain ⟨bytes, mb, r, h1, rfl⟩ := pushBuffer_eq_ok hk
  exact pushBuffer_of_ok h1

theorem popBuffer_setCollect {buf' : Buf} {len : Nat} {r : Int}
    (hk : k.popBuffer m buf len = .ok (k₁, buf', r)) :
    (k.setCollect b).popBuffer m buf len = .ok (k₁.setCollect b, buf', r) := by
  obtain ⟨mb, h1, rfl⟩ := popBuffer_eq_ok hk
  exact bind_of_ok h1

theorem pushTail_setCollect {t : Tid} {i : QId} (hk : k.pushTail t i = .ok k₁) :
    (k.setCollect b).pushTail t i = .ok (k₁.setCollect b) := by
  obtain ⟨s, h1, h2⟩ := bind_eq_ok.mp hk
  obtain rfl := Except.ok.inj h2
  exact bind_of_ok h1

/-- The loop of the receives does not look at the flag. -/
theorem releaseLoop_setCollect {n : Nat} (hk : releaseLoop m n k = .ok k₁) :
    releaseLoop m n (k.setCollect b) = .ok (k₁.setCollect b) := by
  induction n generalizing k with
  | zero =>
      obtain rfl := Except.ok.inj hk
      rfl
  | succ n ih =>
      cases hh : (k.queue (.waiting m)).head with
      | none =>
          rw [releaseLoop_nil n hh] at hk
          obtain rfl := Except.ok.inj hk
          exact releaseLoop_nil n hh
      | some t =>
          cases hb : (k.tcb t).messageHeader with
          | none =>
              unfold releaseLoop at hk
              simp only [hh, hb] at hk
              cases hk
          | some buf =>
              rw [releaseLoop_cons n hh hb] at hk
              refine (releaseLoop_cons (k := k.setCollect b) n hh hb).trans ?_
              by_cases hf : (k.ring m).canFit buf.length ≠ 1
              · rw [if_pos hf] at hk
                obtain rfl := Except.ok.inj hk
                exact if_pos hf
              · rw [if_neg hf] at hk
                obtain ⟨k₂, h1, hk⟩ := bind_eq_ok.mp hk
                obtain ⟨i, h2, hk⟩ := bind_eq_ok.mp hk
                obtain ⟨k₃, h3, hk⟩ := bind_eq_ok.mp hk
                refine (if_neg hf).trans ((bind_of_ok (pushBuffer_setCollect h1)).trans ?_)
                exact (bind_of_ok h2).trans ((bind_of_ok (pushTail_setCollect h3)).trans (ih hk))

end Kernel

variable {k k' k₁ : Kernel} {L L' : Lists} {q : MbxId → List (List UInt8)} {tr : Traffic}
  {m : MbxId} {R : Nat → Nat → Prop}

/-- **The loop of the receives comes to its end**: every message that waits is there, and it is put
    in the ring only if it fits. -/
theorem Flow.releaseLoop_ok (h : Flow R k L q tr)
    (hm : ∀ u, m = .task u → (k.data u).state ≠ .blkRecv) (n : Nat) :
    ∃ k', Kernel.releaseLoop m n k = .ok k' := by
  induction n generalizing k L q with
  | zero => exact ⟨k, rfl⟩
  | succ n ih =>
      have hhead := (h.rest.placed.rep.chain (.waiting m)).head
      cases hL : L (.waiting m) with
      | nil =>
          rw [hL] at hhead
          exact ⟨k, Kernel.releaseLoop_nil n hhead⟩
      | cons t l =>
          have ht : t ∈ L (.waiting m) := hL ▸ List.mem_cons_self
          obtain ⟨buf, hb, hhdr, -⟩ := h.waiting m t ht
          rw [hL] at hhead
          rw [Kernel.releaseLoop_cons n hhead hb]
          by_cases hf : (k.ring m).canFit buf.length = 1
          · rw [if_neg (not_not_intro hf)]
            obtain ⟨heap, hR⟩ := h.rings
            have hrep := hR.rep m (h.active_of_waiting ht)
            have hpos : 0 < buf.length := Nat.lt_of_lt_of_le (by decide) hhdr
            obtain ⟨bytes, mb, h1, -⟩ := hrep.push hhdr ((hrep.canFit_iff hpos).mp hf)
            have h2 : (k.popHead (.waiting m)).pushBuffer m buf = .ok _ :=
              Kernel.pushBuffer_of_ok (k := k.popHead (.waiting m)) h1
            obtain ⟨i, s, L', h3, h4, h5, h6⟩ := (h.rest.round hL hb hf).of_ok h2
            obtain ⟨k', hk'⟩ := ih (h.round h6 h5 hm) fun u hu => by
              rw [h6.data, Function.update_apply]
              split
              · simp
              · exact hm u hu
            exact ⟨k', (bind_of_ok h2).trans ((bind_of_ok h3).trans ((bind_of_ok h4).trans hk'))⟩
          · exact ⟨k, if_pos hf⟩

section Collect

variable (h : Channel R k L q tr) (buf : Buf) {len : Nat} {x : List UInt8} {l : List (List UInt8)}
include h

/-- The flag is down between two events. -/
theorem Channel.setCollect_false : k.setCollect false = k := by
  rw [← h.rest.uart]
  rfl

/-- A receive of the handler that finds nothing leaves the block as it was. -/
theorem Channel.collect_empty (hq : q .uart = []) (len : Nat) : ∃ e,
    (k.setCollect true).kRecvMsgNb (some buf) len =
      .ok ((k.setErrno e).setCollect true, some (rtxErr, buf)) := by
  by_cases hact : (k.mailbox .uart).active = false
  · exact ⟨.ENOENT, if_pos hact⟩
  · obtain ⟨heap, hR⟩ := h.rings
    have hsize := ((hR.rep .uart (Bool.eq_true_of_not_eq_false hact)).size_eq_zero).mpr hq
    exact ⟨.ENOMSG, (if_neg hact).trans (if_pos hsize)⟩

/-- What a receive of the handler does that finds a message. -/
theorem Channel.collect_eq (hq : q .uart = x :: l) : (k.setCollect true).kRecvMsgNb (some buf) len =
    (k.setCollect true).popBuffer .uart buf len >>= fun r =>
      if r.2.2 = -1 then pure (r.1.setErrno .ENOSPC, some (rtxErr, r.2.1))
      else r.1.release .uart >>= fun k' =>
        if k'.uartMailboxCollect then pure (k', some (rtxOk, r.2.1))
        else k'.giveWay >>= fun k' => pure (k', some (rtxOk, r.2.1)) := by
  have hact := h.active_of_mem (hq ▸ List.mem_cons_self : x ∈ q .uart)
  obtain ⟨heap, hR⟩ := h.rings
  have hsize : (k.ring .uart).currentSize ≠ 0 := fun e => by
    cases ((hR.rep .uart hact).size_eq_zero.mp e).symm.trans hq
  have hact' : ¬ (k.mailbox .uart).active = false := by
    rw [hact]
    simp
  exact (if_neg hact').trans (if_neg hsize)

/-- A message that is too long for the block stays, and its header is in the block. -/
theorem Channel.collect_short (hq : q .uart = x :: l) (hhdr : msgHdrSize ≤ len)
    (hlen : len < x.length) : ∃ k₁, (k.setCollect true).kRecvMsgNb (some buf) len =
      .ok (k₁, some (rtxErr, buf.put (x.take msgHdrSize))) := by
  have hact := h.active_of_mem (hq ▸ List.mem_cons_self : x ∈ q .uart)
  obtain ⟨heap, hR⟩ := h.rings
  have hrep := hR.rep .uart hact
  rw [hq] at hrep
  have hpop : (k.ring .uart).popBuffer k.bytes buf len = _ := hrep.pop_short hlen
  rw [if_neg hhdr.not_gt] at hpop
  have hk : k.popBuffer .uart buf len = .ok (_, buf.put (x.take msgHdrSize), -1) := bind_of_ok hpop
  rw [h.collect_eq buf hq]
  exact ⟨_, (bind_of_ok (Kernel.popBuffer_setCollect hk)).trans (if_pos rfl)⟩

/-- **A receive of the handler takes the oldest message**, and the senders move up. -/
theorem Channel.collect_take (hq : q .uart = x :: l) (hlen : x.length ≤ len) : ∃ k₁,
    (k.setCollect true).kRecvMsgNb (some buf) len =
      .ok (k₁.setCollect true, some (rtxOk, buf.put x)) ∧ Carried R k₁ (tr.receive .uart x) := by
  obtain ⟨k₁, h1, -, h3, h4⟩ := h.toFlow.take hq (fun _ e => by cases e) hlen buf
  have hd : k₁.data = k.data := congrArg Tasks.data (h.rest.popBuffer h1).2.1
  have hrecv : ∀ u, MbxId.uart = .task u → (k₁.data u).state ≠ .blkRecv := fun u e => by cases e
  obtain ⟨k₂, h5⟩ := h4.releaseLoop_ok hrecv (k₁.queue (.waiting .uart)).currentSize
  have hpost := h4.release (m := .uart) (fun m' hne => ?_) hrecv
  · obtain ⟨L₂, q₂, n, h6, -⟩ := hpost.of_ok h5
    have hone : (1 : Int) ≠ -1 := by decide
    rw [h.collect_eq buf hq]
    refine ⟨k₂, (bind_of_ok (Kernel.popBuffer_setCollect h1)).trans ?_, h6.carried⟩
    refine (if_neg hone).trans ((bind_of_ok (Kernel.releaseLoop_setCollect h5)).trans ?_)
    exact if_pos rfl
  · intro t l' buf' hL hb
    rw [hd] at hb
    rw [(h3 m').2, Function.update_of_ne hne]
    exact h.full m' t l' buf' hL hb

end Collect

/-! ## 3. The output of one interrupt -/

namespace Uart

variable {u u' : Uart} {b : Buf} {x : List UInt8}

theorem transmitLoop_gBuffer (n : Nat) (u : Uart) : (transmitLoop n u).gBuffer = u.gBuffer := by
  induction n generalizing u with
  | zero => rfl
  | succ n ih => exact ih _

/-- The loop writes the bytes from `gp_buffer` on. -/
theorem transmitLoop_thr (n : Nat) (u : Uart) : (transmitLoop n u).thr =
    u.thr ++ (List.range n).map fun i => u.gBuffer (u.gpBuffer + i) := by
  induction n generalizing u with
  | zero => exact (List.append_nil _).symm
  | succ n ih =>
      unfold transmitLoop
      rw [ih, List.range_succ_eq_map, List.map_cons, List.map_map, List.append_assoc]
      simp only [List.singleton_append, Nat.add_zero]
      congr 3
      funext i
      exact congrArg u.gBuffer (by simp only [Nat.succ_eq_add_one]; omega)

/-- What the handler takes for the data of the message at `b`. -/
def data (b : Buf) : List UInt8 :=
  (List.range (sub32 b.length msgHdrSize)).map fun i => b (msgHdrSize + i)

/-- **The interrupt does what it should for the messages `q` of the mailbox**: it writes the data of
    the oldest one and a zero, or the zero only, writes nothing behind `g_buffer` and leaves the
    indices at the start. -/
structure Prints (q : List (List UInt8)) (u u' : Uart) : Prop where
  written : u'.thr = u.thr ++ (q.headD []).drop msgHdrSize ++ [0]
  inside : ∀ i, gBufferSize ≤ i → u'.gBuffer i = u.gBuffer i
  index : u'.msgIndex = 0
  start : u'.gpBuffer = 0

/-- `msg_index` and `gp_buffer` are at their start. -/
def Idle (u : Uart) : Prop := u.msgIndex = 0 ∧ u.gpBuffer = 0

theorem finish_idle (u : Uart) : (finish u).Idle := ⟨rfl, rfl⟩

@[simp] theorem finish_thr (u : Uart) : (finish u).thr = u.thr ++ [0] := rfl

@[simp] theorem finish_gBuffer (u : Uart) : (finish u).gBuffer = u.gBuffer := rfl

/-- The copy and the output of `n` bytes: they have to fit in `g_buffer`. -/
theorem copy_transmit (hu : u.Idle) (b : Buf) (n : Nat) :
    (gBufferSize < n → u.copy b n = .error .overrun) ∧
      (n ≤ gBufferSize → ∃ u₁, u.copy b n = .ok u₁ ∧
        (u₁.transmit n).thr = u.thr ++ (List.range n).map (fun i => b (msgHdrSize + i)) ∧
        ∀ i, gBufferSize ≤ i → (u₁.transmit n).gBuffer i = u.gBuffer i) := by
  obtain ⟨hidx, hgp⟩ := hu
  unfold copy transmit
  rw [hgp, Nat.zero_add]
  refine ⟨fun hn => if_neg hn.not_ge, fun hn => ⟨_, if_pos hn, ?_, fun i hi => ?_⟩⟩
  · rw [transmitLoop_thr]
    dsimp only
    rw [hidx]
    refine congrArg (u.thr ++ ·) (List.map_congr_left fun i hi => ?_)
    rw [memCpy_apply, if_pos (by simpa using hi)]
    simp
  · rw [transmitLoop_gBuffer]
    dsimp only
    rw [memCpy_apply, if_neg (by omega)]

/-- Behind the receive. -/
theorem thre_of_collect {k k' : Kernel} {buf : Option Buf} (hu : u.Idle)
    (hc : collect (k.setCollect true) buf = .ok (k', b)) :
    (gBufferSize < sub32 b.length msgHdrSize → thre k u buf = .error .overrun) ∧
      (sub32 b.length msgHdrSize ≤ gBufferSize → ∃ u', thre k u buf = .ok (k'.setCollect false, u') ∧
        u'.thr = u.thr ++ data b ++ [0] ∧ (∀ i, gBufferSize ≤ i → u'.gBuffer i = u.gBuffer i) ∧
        u'.Idle) := by
  have hthre : thre k u buf = u.copy b (sub32 b.length msgHdrSize) >>= fun u₁ =>
      pure (k'.setCollect false, finish (u₁.transmit (sub32 b.length msgHdrSize))) := by
    unfold thre
    rw [if_pos hu.1]
    refine (bind_of_ok hc).trans ?_
    dsimp only
    generalize sub32 b.length msgHdrSize = n
    generalize u.copy b n = r
    cases r <;> rfl
  obtain ⟨h1, h2⟩ := copy_transmit hu b (sub32 b.length msgHdrSize)
  rw [hthre]
  refine ⟨fun hn => ?_, fun hn => ?_⟩
  · rw [h1 hn]
    rfl
  · obtain ⟨u₁, h3, h4, h5⟩ := h2 hn
    refine ⟨_, bind_of_ok h3, ?_, fun i hi => ?_, finish_idle _⟩
    · rw [finish_thr, h4]
      rfl
    · rw [finish_gBuffer, h5 i hi]

/-- What it takes to print the messages `q`: the handler has got a block, there is a message, and the
    oldest one fits in `g_buffer`. -/
structure Printable (ptr : Option Nat) (q : List (List UInt8)) : Prop where
  block : ptr ≠ none
  message : q ≠ []
  fits : ∀ x ∈ q.head?, x.length ≤ msgHdrSize + gBufferSize

/-- The interrupt comes to its end and prints the messages `q` as it should. -/
def OutputExact (k : Kernel) (u : Uart) (buf : Option Buf) (q : List (List UInt8)) : Prop :=
  ∃ k' u', thre k u buf = .ok (k', u') ∧ Prints q u u'

theorem collect_of_ok {k k' : Kernel} {buf : Buf} {r : Int}
    (h : k.kRecvMsgNb (some buf) uartMbxSize = .ok (k', some (r, b))) :
    collect k (some buf) = .ok (k', b) := by
  unfold collect call
  rw [h]
  rfl

theorem sub32_length (hx : IsMsg x) (hb : b.length = x.length) :
    sub32 b.length msgHdrSize = x.length - msgHdrSize := by
  rw [sub32_eq (hb ▸ hx.header) b.length_lt, hb]

theorem data_put (hx : IsMsg x) : data (b.put x) = x.drop msgHdrSize := by
  unfold data
  rw [sub32_length hx (Buf.length_put hx)]
  refine List.ext_getElem (by simp) fun i h1 h2 => ?_
  rw [List.length_drop] at h2
  rw [List.getElem_map, List.getElem_range, List.getElem_drop, Buf.put_of_lt (by omega)]

/-- The header of a message tells its length. -/
theorem length_put_header (hx : IsMsg x) : (b.put (x.take msgHdrSize)).length = x.length := by
  have hhdr := hx.header
  refine Buf.length_of_header hx fun i hi _ => ?_
  rw [Buf.put_of_lt (by rw [List.length_take]; omega), List.getElem_take]

theorem printable_cons {a : Nat} {l : List (List UInt8)} :
    Printable (some a) (x :: l) ↔ x.length - msgHdrSize ≤ gBufferSize := by
  constructor
  · intro hp
    exact Nat.sub_le_iff_le_add'.mpr (hp.fits x rfl)
  · intro hle
    exact ⟨by simp, by simp, fun y hy => Option.some.inj hy ▸ Nat.sub_le_iff_le_add'.mp hle⟩

/-- The first word of a block just allocated is 0. -/
theorem length_fresh {k : Kernel} {a : Nat} (h : (k.ram1.mem a).prev = none) (rest : Buf) :
    (fresh k rest a).length = 0 := by
  unfold fresh
  rw [h]
  generalize (k.ram1.mem a).next.getD 0 = w
  simp [Buf.length, putWord]

end Uart

section Output

open Uart

variable {u : Uart} (h : Channel R k L q tr)
include h

/-- **The receive of the handler**: what it leaves in the block fits in `g_buffer` and is the data of
    the oldest message under the condition. -/
theorem Channel.collect (buf : Buf) (a : Nat) : ∃ k₁ b,
    Uart.collect (k.setCollect true) (some buf) = .ok (k₁, b) ∧
      (sub32 b.length msgHdrSize ≤ gBufferSize → ∃ tr', Carried R (k₁.setCollect false) tr') ∧
      (buf.length = 0 → (sub32 b.length msgHdrSize ≤ gBufferSize ∧
        data b = ((q .uart).headD []).drop msgHdrSize ↔ Printable (some a) (q .uart))) := by
  cases hq : q .uart with
  | nil =>
      obtain ⟨e, he⟩ := h.collect_empty buf hq uartMbxSize
      refine ⟨_, _, collect_of_ok he, fun _ => ⟨tr, ?_⟩, fun h0 => ?_⟩
      · change Carried R ((k.setErrno e).setCollect false) tr
        rw [(h.setErrno e).setCollect_false]
        exact (h.setErrno e).carried
      · -- the length 0 is taken for 2^32 - 6 bytes of data
        rw [h0]
        exact iff_of_false (fun hd => absurd hd.1 (by decide)) fun hp => hp.message rfl
  | cons x l =>
      obtain ⟨heap, hR⟩ := h.rings
      have hact := h.active_of_mem (hq ▸ List.mem_cons_self : x ∈ q .uart)
      have hx : IsMsg x := (hR.rep _ hact).msgs x (hq ▸ List.mem_cons_self)
      rw [printable_cons]
      by_cases hlen : x.length ≤ uartMbxSize
      · obtain ⟨k₁, h1, L₁, q₁, h2⟩ := h.collect_take buf hq hlen
        refine ⟨_, _, collect_of_ok h1, fun _ => ⟨tr.receive .uart x, ?_⟩, fun _ => ?_⟩
        · change Carried R (k₁.setCollect false) _
          rw [h2.setCollect_false]
          exact h2.carried
        · rw [sub32_length hx (Buf.length_put hx)]
          exact and_iff_left (data_put hx)
      · -- no message of the mailbox is that long
        obtain ⟨k₁, h1⟩ := h.collect_short buf hq (by decide) (not_le.mp hlen)
        have hlong : ¬ x.length - msgHdrSize ≤ gBufferSize := fun hle => hlen
          ((Nat.sub_le_iff_le_add'.mp hle).trans (by decide))
        refine ⟨_, _, collect_of_ok h1, fun hle => ?_, fun _ => ?_⟩
        · exact absurd (sub32_length hx (length_put_header hx) ▸ hle) hlong
        · rw [sub32_length hx (length_put_header hx)]
          exact iff_of_false (fun hd => hlong hd.1) hlong

/-- **The output is exact under the condition only**, if the block says that its length is 0. -/
theorem Channel.outputExact (hu : u.Idle) (ptr : Option Nat) {block : Nat → Buf}
    (hblock : ∀ a ∈ ptr, (block a).length = 0) :
    OutputExact k u (ptr.map block) (q .uart) ↔ Printable ptr (q .uart) := by
  cases ptr with
  | none =>
      refine iff_of_false (fun hx => ?_) fun hp => hp.block rfl
      obtain ⟨k', u', hx, -⟩ := hx
      unfold thre at hx
      rw [Option.map_none, if_pos hu.1] at hx
      cases hx
  | some a =>
      obtain ⟨k₁, b, h1, -, h2⟩ := h.collect (block a) a
      obtain ⟨h3, h4⟩ := thre_of_collect hu h1
      rw [← h2 (hblock a rfl)]
      refine ⟨fun ⟨k', u', hx, hp⟩ => ?_, fun ⟨hn, hd⟩ => ?_⟩
      · have hn : sub32 b.length msgHdrSize ≤ gBufferSize := not_lt.mp fun hlt => by
          cases (h3 hlt).symm.trans hx
        obtain ⟨u₁, h5, h6, -⟩ := h4 hn
        obtain ⟨-, rfl⟩ := Prod.mk.inj (Except.ok.inj (h5.symm.trans hx))
        have hw := h6.symm.trans hp.written
        exact ⟨hn, List.append_cancel_left (List.append_cancel_right hw)⟩
      · obtain ⟨u₁, h5, h6, h7, h8⟩ := h4 hn
        exact ⟨_, u₁, h5, hd ▸ h6, h7, h8.1, h8.2⟩

/-- The interrupt keeps the invariant of the mailboxes, and its indices. -/
theorem Channel.thre (hu : u.Idle) (buf : Option Buf) :
    Post (Uart.thre k u buf) fun r => (∃ tr', Carried R r.1 tr') ∧ r.2.Idle := by
  cases buf with
  | none =>
      unfold Uart.thre
      rw [if_pos hu.1]
      exact trivial
  | some buf =>
      obtain ⟨k₁, b, h1, h2, -⟩ := h.collect buf 0
      obtain ⟨h3, h4⟩ := thre_of_collect hu h1
      by_cases hn : sub32 b.length msgHdrSize ≤ gBufferSize
      · obtain ⟨u', h5, -, -, h6⟩ := h4 hn
        exact Ends.intro_ok h5 ⟨h2 hn, h6⟩
      · rw [h3 (not_le.mp hn)]
        exact trivial

end Output

/-! ## 4. The blocks of an interrupt -/

section Settled

variable {P : Kernel → Prop} (hP : Settled P) (h : P k) (u : Uart)
include hP h

theorem Settled.setCollect (b : Bool) : P (k.setCollect b) := hP.same h rfl ⟨rfl, rfl, rfl⟩

theorem Settled.received (rbr : UInt8) : Post (Uart.received k u rbr) fun r => P r.1 :=
  Ends.bind (Uart.post_call (hP.kSendMsgNb h tidKcd _)) fun _ hr => hr

theorem Settled.collect (buf : Option Buf) : Post (Uart.collect k buf) fun r => P r.1 := by
  unfold Uart.collect
  apply Ends.bind (Uart.post_call (hP.kRecvMsgNb h buf uartMbxSize))
  intro r hr
  cases buf with
  | none => exact trivial
  | some buf => exact hr

theorem Settled.thre (buf : Option Buf) : Post (Uart.thre k u buf) fun r => P r.1 := by
  have h1 : P (k.setCollect true) := hP.setCollect h true
  unfold Uart.thre
  split
  · apply Ends.bind (hP.collect h1 buf)
    intro r hr
    dsimp only
    generalize sub32 r.2.length msgHdrSize = n
    exact Ends.bind Ends.trivial fun _ _ => hP.setCollect hr false
  · exact hP.setCollect h1 false

end Settled

/-- **An interrupt keeps the books of IRAM1**: it gives back the block it has got, or leaves it. -/
theorem Kernel.Kept.irq (hk : k.Kept) (u : Uart) (iir rbr : UInt8) (rest : Buf) :
    Post (Uart.uart0IrqHandler k u iir rbr rest) fun r => Sparing k r.1 ∧ r.1.Kept := by
  obtain ⟨h, hb⟩ := hk
  unfold Uart.uart0IrqHandler
  apply Ends.bind (Uart.post_call Ends.returned)
  rintro ⟨k₁, ptr⟩ hal
  have hback : ∀ {x : Except UartFault (Kernel × Uart)}, Post x (fun r => SameIram1 k₁ r.1) →
      Post (x >>= fun r => Uart.call (r.1.mpoolDealloc mpidIram1 ptr) >>= fun d => pure (d.1, r.2))
        fun r => Sparing k r.1 ∧ r.1.Kept := fun hx =>
    Ends.bind hx fun r hr => Ends.bind (Uart.post_call (hb.giveBack hal hr).post) fun d hd => hd
  have hs := SameIram1.settled k₁
  have h0 : SameIram1 k₁ k₁ := ⟨rfl, rfl⟩
  apply Ends.ite
  · exact fun _ => hback (hs.received h0 u rbr)
  intro _
  apply Ends.ite
  · exact fun _ => hback (hs.thre h0 u _)
  · intro _
    obtain ⟨h1, ⟨-, h2⟩ | ⟨a, -, -, h2, -⟩⟩ := (hb.mpoolAlloc _).of_ok hal
    · exact ⟨h1, h, h2⟩
    · exact ⟨h1, _, h2⟩

/-- What the handler has allocated says that its length is 0. -/
theorem Kernel.Kept.fresh (hk : k.Kept) {ptr : Option Nat}
    (hal : k.mpoolAlloc mpidIram1 uartMbxSize = .ok (k₁, ptr)) (rest : Buf) :
    ∀ a ∈ ptr, (Uart.fresh k₁ rest a).length = 0 := by
  obtain ⟨h, hb⟩ := hk
  rintro a rfl
  obtain ⟨-, ⟨e, -⟩ | ⟨a', e, -, -, hprev⟩⟩ := (hb.mpoolAlloc _).of_ok hal
  · cases e
  · obtain rfl := Option.some.inj e
    exact Uart.length_fresh hprev rest

/-! ## 5. Runs -/

/-- An event of the kernel, or an interrupt of the UART with its registers and what the last user of
    its block has left there. -/
inductive UartEvent where
  | kernel (e : Event)
  | irq (iir rbr : UInt8) (rest : Buf)

/-- The condition on a step: an interrupt comes at any time. -/
def UartEvent.Permitted (k : Kernel) : UartEvent → Prop
  | .kernel e => k.Legal e ∧ k.Tame e ∧ e.overwrites = false ∧ k.FreesCleanly e
  | .irq .. => True

instance (k : Kernel) (e : UartEvent) : Decidable (e.Permitted k) := by
  unfold UartEvent.Permitted
  split <;> infer_instance

namespace Uart

/-- One event of a run with the console. -/
def step (s : Kernel × Uart) : UartEvent → Option (Kernel × Uart)
  | .kernel e => (s.1.step e).map fun k => (k, s.2)
  | .irq iir rbr rest => (uart0IrqHandler s.1 s.2 iir rbr rest).toOption

/-- What an interrupt knows of the mailboxes, and of the console. -/
def Ready (s : Kernel × Uart) : Prop := (∃ tr, Carried (fun _ _ => True) s.1 tr) ∧ s.2.Idle

/-- The invariant of these runs. -/
def Inv (s : Kernel × Uart) : Prop := Ready s ∧ s.1.Kept

variable {s s' : Kernel × Uart}

/-- A key goes to the KCD, or is lost. -/
theorem ready_received (h : Ready s) (rbr : UInt8) : Post (received s.1 s.2 rbr) Ready := by
  obtain ⟨⟨tr, L, q, h⟩, hu⟩ := h
  refine Ends.bind (post_call (h.kSendMsgNb tidKcd _ fun hne => absurd rfl hne)) fun r hr => ?_
  exact ⟨⟨_, hr⟩, hu⟩

/-- An interrupt keeps the invariant of the mailboxes. -/
theorem ready_irq (h : Ready s) (iir rbr : UInt8) (rest : Buf) :
    Post (uart0IrqHandler s.1 s.2 iir rbr rest) Ready := by
  have hfree : ∀ {x : Except UartFault (Kernel × Uart)} {ptr : Option Nat}, Post x Ready →
      Post (x >>= fun r => call (r.1.mpoolDealloc mpidIram1 ptr) >>= fun d => pure (d.1, r.2))
        Ready :=
    fun hx => Ends.bind hx fun r ⟨⟨tr, L, q, hr⟩, hu⟩ =>
      Ends.bind (post_call (hr.memDealloc _)) fun d hd => ⟨⟨tr, hd⟩, hu⟩
  obtain ⟨⟨tr, L, q, h⟩, hu⟩ := h
  refine Ends.bind (post_call (h.memAlloc uartMbxSize)) fun r hr => ?_
  have hr' : Ready (r.1, s.2) := ⟨⟨tr, hr⟩, hu⟩
  refine Ends.ite (fun _ => hfree (ready_received hr' rbr)) fun _ => Ends.ite (fun _ => ?_) fun _ => hr'
  obtain ⟨L', q', hr⟩ := hr
  exact hfree (hr.thre hu _)

/-- **The step lemma.** -/
theorem inv_step (h : Inv s) {e : UartEvent} (he : e.Permitted s.1) (hs : step s e = some s') :
    Inv s' := by
  cases e with
  | kernel e =>
      obtain ⟨⟨⟨tr, L, q, h⟩, hu⟩, hk⟩ := h
      obtain ⟨k', hstep, rfl⟩ := Option.map_eq_some_iff.mp hs
      obtain ⟨r, hx⟩ := Kernel.step_eq_some.mp hstep
      exact ⟨⟨(h.exec_tame he.1 he.2.1 he.2.2.1).of_ok hx, hu⟩,
        ((hk.exec he.2.2.2).of_ok hx).2⟩
  | irq iir rbr rest =>
      have hx := toOption_eq_some.mp hs
      exact ⟨(ready_irq h.1 iir rbr rest).of_ok hx, ((h.2.irq s.2 iir rbr rest).of_ok hx).2⟩

/-- **The run lemma.** -/
theorem inv_run {k : Kernel} {es : List UartEvent} (hb : Booted k)
    (h : Allowed step (fun s e => e.Permitted s.1) (k, .init) es)
    (hr : run step (k, .init) es = some s) : Inv s := by
  obtain ⟨L, hL⟩ := hb.initial
  have hI : Inv (k, .init) := ⟨⟨⟨.empty, hL.channel.carried⟩, rfl, rfl⟩, hb.kept⟩
  exact run_reached Inv (fun _ _ _ h he hs => inv_step h he hs) hI h hr

/-- **In every run the next interrupt for an empty transmit register writes the data of the oldest
    message and a zero, and stays inside `g_buffer`, if and only if** the handler got a block, there
    is a message, and the data of the oldest one fits in `g_buffer`. -/
theorem output_exact {k₀ k : Kernel} {es : List UartEvent} (hb : Booted k₀)
    (h : Allowed step (fun s e => e.Permitted s.1) (k₀, .init) es)
    (hr : run step (k₀, .init) es = some s) {ptr : Option Nat}
    (hal : s.1.mpoolAlloc mpidIram1 uartMbxSize = .ok (k, ptr)) (rest : Buf)
    {x : List (List UInt8)} (hx : s.1.RingHolds .uart x) :
    OutputExact k s.2 (ptr.map (fresh k rest)) x ↔ Printable ptr x := by
  obtain ⟨⟨⟨tr, L, q, hC⟩, hu⟩, hk⟩ := inv_run hb h hr
  obtain ⟨L', q', hC'⟩ := (hC.memAlloc uartMbxSize).of_ok hal
  have hx' : k.RingHolds .uart x := by
    obtain ⟨m, -, rfl⟩ := mpoolAlloc_eq_ok hal
    exact hx
  rw [hx'.unique (hC'.toFlow.ringHolds .uart)]
  exact hC'.outputExact hu ptr (hk.fresh hal rest)

/-- The state a run reaches, and the block of the next interrupt, if the run gets there. -/
def irqAfter (es : List UartEvent) : Option ((Kernel × Uart) × Kernel × Option Nat) := do
  let s ← run step (bootKernel threeTasks, .init) es
  let r ← (s.1.mpoolAlloc mpidIram1 uartMbxSize).toOption
  return (s, r)

/-- A task sends a text of `n` characters to the console. -/
def say (n : Nat) : UartEvent :=
  .kernel (.call (.mbxSend tidUart (Buf.ofMsg (message 14 display (List.replicate n (char 'x'))))))

/-- An interrupt for an empty transmit register. -/
def thrEmpty : UartEvent := .irq 2 0 fun _ => 0

theorem irqAfter_eq_some {es : List UartEvent} {r : (Kernel × Uart) × Kernel × Option Nat}
    (h : irqAfter es = some r) : run step (bootKernel threeTasks, .init) es = some r.1 ∧
      r.1.1.mpoolAlloc mpidIram1 uartMbxSize = .ok r.2 := by
  obtain ⟨s, h1, h⟩ := Option.bind_eq_some_iff.mp h
  obtain ⟨r', h2, h⟩ := Option.bind_eq_some_iff.mp h
  obtain rfl := Option.some.inj h
  exact ⟨h1, toOption_eq_some.mp h2⟩

/-- The longest text that fits, and behind it one of two characters. -/
theorem output_exact_said : ∃ s k a x,
    run step (bootKernel threeTasks, .init) [say 47, thrEmpty, say 2] = some s ∧
      s.1.mpoolAlloc mpidIram1 uartMbxSize = .ok (k, some a) ∧ s.1.RingHolds .uart x ∧
      OutputExact k s.2 (some (fresh k (fun _ => 0) a)) x := by
  have hrun : (irqAfter [say 47, thrEmpty, say 2]).any (fun r => r.2.2.isSome ∧
      (r.1.1.mailbox .uart).active = true ∧ (r.1.1.ring .uart).currentSize = 8) = true := by
    decide +kernel
  obtain ⟨⟨s, k, ptr⟩, he, hc⟩ := (Option.any_eq_true _ _).mp hrun
  obtain ⟨hptr, hact, hsize⟩ := of_decide_eq_true hc
  obtain ⟨a, rfl⟩ := Option.isSome_iff_exists.mp hptr
  obtain ⟨hr, hal⟩ := irqAfter_eq_some he
  have hall : Allowed step (fun s e => e.Permitted s.1) (bootKernel threeTasks, .init)
      [say 47, thrEmpty, say 2] := by decide +kernel
  obtain ⟨⟨⟨tr, L, q, hC⟩, -⟩, -⟩ := inv_run booted_threeTasks hall hr
  have hx := hC.toFlow.ringHolds .uart
  obtain ⟨heap, hR⟩ := hC.rings
  have hflat : (q .uart).flatten.length = 8 := (hR.rep .uart hact).size.symm.trans hsize
  refine ⟨s, k, a, q .uart, hr, hal, hx,
    (output_exact booted_threeTasks hall hr hal (fun _ => 0) hx).mpr ⟨by simp, fun hnil => ?_,
      fun y hy => ?_⟩⟩
  · rw [hnil] at hflat
    cases hflat
  · refine le_trans (List.sublist_flatten_of_mem (List.mem_of_mem_head? hy)).length_le ?_
    rw [hflat]
    decide

/-- **A text of 48 characters overruns `g_buffer`.** -/
theorem output_overruns : ¬ ∀ (k₀ k : Kernel) (es : List UartEvent) (s : Kernel × Uart)
    (ptr : Option Nat) (rest : Buf) (x : List (List UInt8)), Booted k₀ →
    Allowed step (fun s e => e.Permitted s.1) (k₀, .init) es →
    run step (k₀, .init) es = some s →
    s.1.mpoolAlloc mpidIram1 uartMbxSize = .ok (k, ptr) → s.1.RingHolds .uart x →
    OutputExact k s.2 (ptr.map (fresh k rest)) x := by
  intro h
  have hrun : (irqAfter [say 48]).any (fun r =>
      (thre r.2.1 r.1.2 (r.2.2.map (fresh r.2.1 fun _ => 0))).toOption.isNone) = true := by
    decide +kernel
  obtain ⟨⟨s, k, ptr⟩, he, hnone⟩ := (Option.any_eq_true _ _).mp hrun
  obtain ⟨hr, hal⟩ := irqAfter_eq_some he
  have hall : Allowed step (fun s e => e.Permitted s.1) (bootKernel threeTasks, .init) [say 48] := by
    decide +kernel
  obtain ⟨⟨⟨tr, L, q, hC⟩, -⟩, -⟩ := inv_run booted_threeTasks hall hr
  obtain ⟨k', u', hx, -⟩ := h _ k _ s ptr (fun _ => 0) _ booted_threeTasks hall hr hal
    (hC.toFlow.ringHolds .uart)
  rw [toOption_eq_some.mpr hx] at hnone
  cases hnone

end Uart

end Rtx
