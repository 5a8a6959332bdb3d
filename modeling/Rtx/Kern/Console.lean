/-
  File:      Rtx/Kern/Console.lean
  Subject:   What the console prints in a run.

  A run of the tasks, the timer and the UART keeps the books of all mailboxes, those of the
  interrupt handler included: it sends the keys and is the owner of `UART_MAILBOX`. The bytes
  written to THR are then the data of the messages that the handler took from its mailbox, in the
  order in which they were sent, with a zero behind each (`console_stream`), if every interrupt for
  an empty transmit register finds what it needs (`Kernel.Prints`).
-/
import Rtx.Kern.Uart

namespace Rtx

open Lib

/-! ## 1. The books of an interrupt -/

namespace Uart

/-- The message the handler sends for a key. -/
def keyMessage (rbr : UInt8) : Buf := Buf.ofMsg (message (UInt8.ofNat tidUart) keyIn [rbr])

/-- The handler has received into its block: what it took, entered in the books. -/
def recordCollect (tr : Traffic) (k : Kernel) (buf : Option Buf) : Traffic :=
  match (k.setCollect true).kRecvMsgNb buf uartMbxSize with
  | .ok (_, some (r, buf)) => if r = rtxOk then tr.receive .uart buf.msg else tr
  | _ => tr

/-- The handler has sent a key, entered in the books. -/
def recordKey (tr : Traffic) (k : Kernel) (rbr : UInt8) : Traffic :=
  match k.kSendMsgNb tidKcd (keyMessage rbr) with
  | .ok (_, r) => tr.record k (.call (.mbxSendNb tidKcd (keyMessage rbr))) (.result r)
  | .error _ => tr

/-- The interrupt is for a received character, or for an empty transmit register. -/
def isRda (iir : UInt8) : Bool := (iir >>> 1) &&& iirRda ≠ 0

def isThre (iir : UInt8) : Bool := !isRda iir && (iir >>> 1) &&& iirThre ≠ 0

/-- The calls of an interrupt, behind its allocation, with their replies, entered in the books. -/
def record (tr : Traffic) (k : Kernel) (iir rbr : UInt8) (buf : Option Buf) : Traffic :=
  if isRda iir then recordKey tr k rbr
  else if isThre iir then recordCollect tr k buf
  else tr

/-- What the interrupts for an empty transmit register write for these messages, one each. -/
def output (xs : List (List UInt8)) : List UInt8 := xs.flatMap fun x => x.drop msgHdrSize ++ [0]

end Uart

/-- The next interrupt for an empty transmit register prints what it should: its mailbox has a
    message, and the oldest one fits in `g_buffer`. -/
def Kernel.Prints (k : Kernel) : Prop :=
  (k.mailbox .uart).active = true ∧ (k.ring .uart).currentSize ≠ 0 ∧
    (k.ring .uart).oldestLength k.bytes ≤ msgHdrSize + gBufferSize

instance Kernel.Prints.decidable (k : Kernel) : Decidable k.Prints :=
  inferInstanceAs (Decidable (_ ∧ _ ∧ _))

/-- IRAM1 has a block for the handler. -/
def Kernel.hasUartBlock (k : Kernel) : Bool :=
  (k.mpoolAlloc mpidIram1 uartMbxSize).toOption.any fun r => r.2.isSome

/-- A run with the console and the books of all mailboxes. -/
structure Console where
  kernel : Kernel
  uart : Uart
  traffic : Traffic

namespace Console

def init (k : Kernel) : Console := ⟨k, .init, .empty⟩

/-- One event. -/
def step (s : Console) : UartEvent → Option Console
  | .kernel e => (Traffic.step (s.kernel, s.traffic) e).map fun x => ⟨x.1, s.uart, x.2⟩
  | .irq iir rbr rest => do
      let (k, ptr) ← (s.kernel.mpoolAlloc mpidIram1 uartMbxSize).toOption
      let (k', u) ← (Uart.uart0IrqHandler s.kernel s.uart iir rbr rest).toOption
      return ⟨k', u, Uart.record s.traffic k iir rbr (ptr.map (Uart.fresh k rest))⟩

/-- The condition on a step. -/
def Regular (s : Console) : UartEvent → Prop
  | .kernel e => s.kernel.Legal e ∧ s.kernel.Honest e ∧ s.kernel.FreesCleanly e
  | .irq iir _ _ => Uart.isThre iir = true → s.kernel.hasUartBlock = true ∧ s.kernel.Prints

instance Regular.decidable (s : Console) : (e : UartEvent) → Decidable (s.Regular e)
  | .kernel e => inferInstanceAs (Decidable (s.kernel.Legal e ∧ s.kernel.Honest e ∧
      s.kernel.FreesCleanly e))
  | .irq iir _ _ => inferInstanceAs (Decidable (Uart.isThre iir = true →
      s.kernel.hasUartBlock = true ∧ s.kernel.Prints))

end Console

variable {k k' : Kernel} {L : Lists} {q : MbxId → List (List UInt8)} {tr : Traffic}
  {R : Nat → Nat → Prop} {u : Uart} {rest : Buf}

/-! ## 2. One interrupt -/

section Irq

open Uart

variable (h : Channel R k L q tr)
include h

/-- The condition, in terms of the messages of the mailbox. -/
theorem Channel.prints_iff : k.Prints ↔
    ∃ x l, q .uart = x :: l ∧ x.length ≤ msgHdrSize + gBufferSize := by
  obtain ⟨heap, hR⟩ := h.rings
  constructor
  · rintro ⟨hact, hsize, hfits⟩
    have hrep := hR.rep .uart hact
    cases hq : q .uart with
    | nil => exact absurd (hrep.size_eq_zero.mpr hq) hsize
    | cons x l =>
        rw [hq] at hrep
        rw [hrep.oldestLength_eq] at hfits
        exact ⟨x, l, rfl, hfits⟩
  · rintro ⟨x, l, hq, hfits⟩
    have hact := h.active_of_mem (hq ▸ List.mem_cons_self : x ∈ q .uart)
    have hrep := hR.rep .uart hact
    refine ⟨hact, fun e => ?_, ?_⟩
    · cases hq.symm.trans (hrep.size_eq_zero.mp e)
    · rw [hq] at hrep
      rw [hrep.oldestLength_eq]
      exact hfits

/-- **An interrupt for an empty transmit register** takes the oldest message and writes its data and
    a zero. -/
theorem Channel.thre_prints (hu : u.Idle) {x : List UInt8} {l : List (List UInt8)}
    (hq : q .uart = x :: l) (hfits : x.length ≤ msgHdrSize + gBufferSize) (buf : Buf) : ∃ k' u',
    Uart.thre k u (some buf) = .ok (k', u') ∧ Carried R k' (recordCollect tr k (some buf)) ∧
      u'.Idle ∧ u'.thr = u.thr ++ (x.drop msgHdrSize ++ [0]) ∧
      (recordCollect tr k (some buf)).received .uart = tr.received .uart ++ [x] := by
  have hact := h.active_of_mem (hq ▸ List.mem_cons_self : x ∈ q .uart)
  obtain ⟨heap, hR⟩ := h.rings
  have hx : IsMsg x := (hR.rep _ hact).msgs x (hq ▸ List.mem_cons_self)
  have hlen : x.length ≤ uartMbxSize := hfits.trans (by decide)
  obtain ⟨k₁, h1, L₁, q₁, h2⟩ := h.collect_take buf hq hlen
  have hrec : recordCollect tr k (some buf) = tr.receive .uart x := by
    unfold recordCollect
    rw [h1]
    dsimp only
    rw [if_pos (rfl : rtxOk = rtxOk), Buf.msg_put hx]
  have hle : sub32 (buf.put x).length msgHdrSize ≤ gBufferSize := by
    rw [sub32_length hx (Buf.length_put hx)]
    exact Nat.sub_le_iff_le_add'.mpr hfits
  obtain ⟨u', h3, h4, -, h5⟩ := (thre_of_collect hu (collect_of_ok h1)).2 hle
  refine ⟨_, u', h3, ?_, h5, ?_, ?_⟩
  · rw [hrec]
    change Carried R (k₁.setCollect false) _
    rw [h2.setCollect_false]
    exact h2.carried
  · rw [h4, data_put hx, List.append_assoc]
  · rw [hrec]
    exact Function.update_self (f := tr.received) .uart (tr.received .uart ++ [x])

/-- **An interrupt for a key** sends it to the KCD. -/
theorem Channel.received_recorded (u : Uart) (rbr : UInt8) : Post (Uart.received k u rbr) fun r =>
    Carried R r.1 (recordKey tr k rbr) ∧ r.2.thr = u.thr ∧ (u.Idle → r.2.Idle) := by
  unfold Uart.received
  have hsend := h.kSendMsgNb tidKcd (keyMessage rbr) fun hne => absurd rfl hne
  cases hk : k.kSendMsgNb tidKcd (keyMessage rbr) with
  | error e =>
      change Post (call (k.kSendMsgNb tidKcd (keyMessage rbr)) >>= _) _
      rw [hk]
      exact trivial
  | ok r =>
      have hrec : recordKey tr k rbr = tr.record k (.call (.mbxSendNb tidKcd (keyMessage rbr)))
          (.result r.2) := by
        unfold recordKey
        rw [hk]
      rw [hrec]
      refine Ends.bind_ok (a := r) ?_ ⟨hsend.of_ok hk, rfl, id⟩
      change call (k.kSendMsgNb tidKcd (keyMessage rbr)) = _
      rw [hk]
      rfl

omit h in
/-- A key is nothing that is received. -/
theorem recordKey_received (tr : Traffic) (k : Kernel) (rbr : UInt8) :
    (recordKey tr k rbr).received = tr.received := by
  unfold recordKey
  split
  · unfold Traffic.record
    dsimp only
    split
    · rfl
    · split <;> rfl
  · rfl

end Irq

/-! ## 3. Runs -/

namespace Console

variable {s s' : Console}

/-- The invariant of these runs. -/
structure Inv (s : Console) : Prop where
  carried : Carried (fun _ _ => True) s.kernel s.traffic
  kept : s.kernel.Kept
  idle : s.uart.Idle
  printed : s.uart.thr = 0 :: Uart.output (s.traffic.received .uart)

/-- What an interrupt does to the console, in a state whose UART mailbox holds the messages `q`. -/
def Prints (s s' : Console) (q : List (List UInt8)) : Prop :=
  ∃ x l, q = x :: l ∧ s'.uart.thr = s.uart.thr ++ (x.drop msgHdrSize ++ [0]) ∧
    s'.traffic.received .uart = s.traffic.received .uart ++ [x]

/-- One more message has been written. -/
theorem output_append (xs : List (List UInt8)) (x : List UInt8) :
    Uart.output (xs ++ [x]) = Uart.output xs ++ (x.drop msgHdrSize ++ [0]) := by
  unfold Uart.output
  rw [List.flatMap_append, List.flatMap_singleton]

/-- What an interrupt does, behind its allocation. -/
theorem irq_eq {iir rbr : UInt8} (hs : s.step (.irq iir rbr rest) = some s') :
    ∃ k ptr, s.kernel.mpoolAlloc mpidIram1 uartMbxSize = .ok (k, ptr) ∧
      s'.traffic = Uart.record s.traffic k iir rbr (ptr.map (Uart.fresh k rest)) ∧
      Uart.uart0IrqHandler s.kernel s.uart iir rbr rest = .ok (s'.kernel, s'.uart) := by
  obtain ⟨⟨k, ptr⟩, h1, hs⟩ := Option.bind_eq_some_iff.mp hs
  obtain ⟨⟨k', u⟩, h2, hs⟩ := Option.bind_eq_some_iff.mp hs
  obtain rfl := Option.some.inj hs
  exact ⟨k, ptr, toOption_eq_some.mp h1, rfl, toOption_eq_some.mp h2⟩

/-- The handler behind its allocation. -/
theorem handler_eq {k₀ : Kernel} {ptr : Option Nat}
    (hal : k₀.mpoolAlloc mpidIram1 uartMbxSize = .ok (k, ptr)) (iir rbr : UInt8) :
    Uart.uart0IrqHandler k₀ u iir rbr rest =
      if Uart.isRda iir = true then Uart.received k u rbr >>= fun r =>
        Uart.call (r.1.mpoolDealloc mpidIram1 ptr) >>= fun d => pure (d.1, r.2)
      else if Uart.isThre iir = true then Uart.thre k u (ptr.map (Uart.fresh k rest)) >>= fun r =>
        Uart.call (r.1.mpoolDealloc mpidIram1 ptr) >>= fun d => pure (d.1, r.2)
      else pure (k, u) := by
  have hcall : Uart.call (k₀.mpoolAlloc mpidIram1 uartMbxSize) = .ok (k, ptr) := by
    rw [hal]
    rfl
  unfold Uart.uart0IrqHandler Uart.isThre Uart.isRda
  refine (bind_of_ok hcall).trans ?_
  dsimp only
  by_cases h1 : (iir >>> 1) &&& Uart.iirRda ≠ 0
  · rw [if_pos h1, if_pos (decide_eq_true h1)]
  refine (if_neg h1).trans (Eq.trans ?_ (if_neg (by simpa using h1)).symm)
  by_cases h2 : (iir >>> 1) &&& Uart.iirThre ≠ 0
  · rw [if_pos h2]
    exact (if_pos (by simpa using ⟨not_not.mp h1, h2⟩)).symm
  · rw [if_neg h2]
    exact (if_neg (by simpa using fun _ => not_not.mp h2)).symm

section Irq

variable {iir rbr : UInt8} (h : Inv s) (hok : s.Regular (.irq iir rbr rest))
  (hs : s.step (.irq iir rbr rest) = some s')
include h hok hs

/-- **An interrupt** keeps the invariant, and prints the oldest message. -/
theorem Inv.irq : Inv s' ∧ (Uart.isThre iir = true → ∀ q, s.kernel.RingHolds .uart q →
    Prints s s' q) := by
  obtain ⟨k, ptr, hal, htr, hx⟩ := irq_eq hs
  obtain ⟨⟨L, q, hC⟩, hkept, hidle, hprinted⟩ := h
  have hkept' := ((hkept.irq s.uart iir rbr rest).of_ok hx).2
  obtain ⟨L₁, q₁, hC₁⟩ := (hC.memAlloc uartMbxSize).of_ok hal
  obtain ⟨m, -, hk⟩ := mpoolAlloc_eq_ok hal
  -- the block is given back
  have hback : ∀ {k₁ : Kernel} {u₁ : Uart} {tr : Traffic}, Carried (fun _ _ => True) k₁ tr →
      Uart.call (k₁.mpoolDealloc mpidIram1 ptr) >>= (fun d => pure (d.1, u₁)) =
        .ok (s'.kernel, s'.uart) → Carried (fun _ _ => True) s'.kernel tr ∧ s'.uart = u₁ := by
    rintro k₁ u₁ tr ⟨L₂, q₂, hC₂⟩ hd
    obtain ⟨⟨k₂, r⟩, h1, h2⟩ := bind_eq_ok.mp hd
    obtain ⟨rfl, rfl⟩ := Prod.mk.inj (Except.ok.inj h2)
    exact ⟨(Uart.post_call (hC₂.memDealloc ptr)).of_ok h1, rfl⟩
  rw [handler_eq hal] at hx
  by_cases hrda : Uart.isRda iir = true
  · rw [if_pos hrda] at hx
    obtain ⟨⟨k₁, u₁⟩, h1, hx⟩ := bind_eq_ok.mp hx
    obtain ⟨h2, h3, h4⟩ := (hC₁.received_recorded s.uart rbr).of_ok h1
    have hrec : s'.traffic = Uart.recordKey s.traffic k rbr := htr.trans (if_pos hrda)
    obtain ⟨h5, h6⟩ := hback h2 hx
    have hthr : s'.uart.thr = s.uart.thr := (congrArg Uart.thr h6).trans h3
    refine ⟨⟨hrec ▸ h5, hkept', h6 ▸ h4 hidle, ?_⟩, fun ht => ?_⟩
    · rw [hthr, hrec, recordKey_received]
      exact hprinted
    · unfold Uart.isThre at ht
      rw [hrda] at ht
      cases ht
  rw [if_neg hrda] at hx
  by_cases hthre : Uart.isThre iir = true
  · rw [if_pos hthre] at hx
    obtain ⟨hblk, hp⟩ := hok hthre
    have hrec : s'.traffic = Uart.recordCollect s.traffic k (ptr.map (Uart.fresh k rest)) :=
      htr.trans ((if_neg hrda).trans (if_pos hthre))
    -- the allocation has left the mailbox alone
    have hp₁ : k.Prints := by
      rw [hk]
      exact hp
    obtain ⟨a, rfl⟩ : ∃ a, ptr = some a := by
      unfold Kernel.hasUartBlock at hblk
      rw [hal] at hblk
      exact Option.isSome_iff_exists.mp hblk
    obtain ⟨x, l, hq, hfits⟩ := hC₁.prints_iff.mp hp₁
    obtain ⟨k₁, u₁, h1, h2, h3, h4, h5⟩ := hC₁.thre_prints hidle hq hfits (Uart.fresh k rest a)
    obtain ⟨y, h1', hx⟩ := bind_eq_ok.mp hx
    obtain rfl := Except.ok.inj (h1.symm.trans h1')
    obtain ⟨h6, h7⟩ := hback h2 hx
    have hthr := (congrArg Uart.thr h7).trans h4
    have hreceived := (congrArg (fun tr : Traffic => tr.received .uart) hrec).trans h5
    refine ⟨⟨hrec ▸ h6, hkept', h7 ▸ h3, ?_⟩, fun _ q' hq' => ?_⟩
    · rw [hthr, hreceived, output_append, hprinted]
      rfl
    have hq₁ : k.RingHolds .uart q' := by
      rw [hk]
      exact hq'
    exact ⟨x, l, (hq₁.unique (hC₁.toFlow.ringHolds .uart)).trans hq, hthr, hreceived⟩
  · -- an interrupt of another kind
    rw [if_neg hthre] at hx
    obtain ⟨hk', hu'⟩ := Prod.mk.inj (Except.ok.inj hx)
    have hrec : s'.traffic = s.traffic := htr.trans ((if_neg hrda).trans (if_neg hthre))
    refine ⟨⟨?_, hkept', hu' ▸ hidle, ?_⟩, fun ht => absurd ht hthre⟩
    · rw [hrec, ← hk']
      exact hC₁.carried
    · rw [hrec, ← hu']
      exact hprinted

end Irq

/-- An event of the kernel leaves the messages of the handler alone. -/
theorem record_received_uart (tr : Traffic) (k : Kernel) (e : Event) (r : Reply) :
    (tr.record k e r).received .uart = tr.received .uart := by
  have hrecv : ∀ t x, (tr.receive (.task t) x).received .uart = tr.received .uart := fun t x => by
    have hne : MbxId.uart ≠ .task t := fun e => by cases e
    exact Function.update_of_ne hne (tr.received (.task t) ++ [x]) tr.received
  unfold Traffic.record
  split
  case h_6 => rfl
  all_goals split
  all_goals first | rfl | exact hrecv _ _ | (split <;> rfl)

/-- **The step lemma.** -/
theorem Inv.step (h : Inv s) {e : UartEvent} (hok : s.Regular e) (hs : s.step e = some s') :
    Inv s' := by
  cases e with
  | irq iir rbr rest => exact (h.irq hok hs).1
  | kernel e =>
      obtain ⟨⟨L, q, hC⟩, hkept, hidle, hprinted⟩ := h
      obtain ⟨⟨k', tr'⟩, hx, rfl⟩ := Option.map_eq_some_iff.mp hs
      obtain ⟨r, hexec, htr⟩ := Traffic.step_eq_some.mp hx
      refine ⟨hC.honest hok.1 hok.2.1 hx, ((hkept.exec hok.2.2).of_ok hexec).2, hidle, ?_⟩
      obtain rfl : tr' = s.traffic.record s.kernel e r := htr
      rw [record_received_uart]
      exact hprinted

/-- **What the console has printed** is the data of the messages it took, each with a zero behind
    it; what it took, what its ring holds and what the waiting senders have at hand is what was sent
    to it, in the order of the sends, and so it is for every mailbox. The next interrupt for an
    empty transmit register prints the oldest message. -/
structure Exact (s : Console) : Prop where
  printed : s.uart.thr = 0 :: Uart.output (s.traffic.received .uart)
  order : ∀ m, Fifo s.kernel s.traffic m
  next : ∀ iir rbr rest s' q, s.Regular (.irq iir rbr rest) → Uart.isThre iir = true →
    s.step (.irq iir rbr rest) = some s' → s.kernel.RingHolds .uart q → Prints s s' q

theorem Inv.exact (h : Inv s) : Exact s where
  printed := h.printed
  order := fun m => by
    obtain ⟨L, q, hC⟩ := h.carried
    exact hC.toFlow.fifo m
  next := fun _ _ _ _ x hok ht hs hx => (h.irq hok hs).2 ht x hx

/-- **The stream of the console**, in every run from the boot. -/
theorem console_stream {es : List UartEvent} (hb : Booted k)
    (h : Allowed step Regular (init k) es) (hr : run step (init k) es = some s) : Exact s := by
  obtain ⟨L, hL⟩ := hb.initial
  have h0 : Inv (init k) := ⟨hL.channel.carried, hb.kept, ⟨rfl, rfl⟩, rfl⟩
  exact (run_reached Inv (fun _ _ _ hI hok hs => hI.step hok hs) h0 h hr).exact

/-- Two texts are printed, and a key is on its way to the KCD. -/
theorem console_stream_said : ∃ s, run step (init (bootKernel threeTasks))
    [Uart.say 5, Uart.say 47, .irq 4 97 fun _ => 0, Uart.thrEmpty, Uart.thrEmpty] = some s ∧
      Exact s := by
  have hr : (run step (init (bootKernel threeTasks)) [Uart.say 5, Uart.say 47,
    .irq 4 97 fun _ => 0, Uart.thrEmpty, Uart.thrEmpty]).isSome = true := by decide +kernel
  obtain ⟨s, hs⟩ := Option.isSome_iff_exists.mp hr
  exact ⟨s, hs, console_stream booted_threeTasks (by decide +kernel) hs⟩

end Console

end Rtx
