/-
  File:      Rtx/Kern/Reliable.lean
  Subject:   A mailbox is a reliable channel, and no task waits in vain.

  In runs of tasks that are not real-time tasks, whose receivers bring buffers as long as their
  rings, what the owner of a mailbox received, then its ring, then its waiting senders is what was
  sent to it (`reliable`), and nobody waits for a message or for room that is there
  (`no_lost_wakeup`).
-/
import Rtx.Kern.Carried
import Rtx.Kern.Scheduling

namespace Rtx

open Lib

variable {k k' : Kernel} {L L' : Lists} {q : MbxId → List (List UInt8)} {tr tr' : Traffic}
  {m : MbxId} {t : Tid} {R : Nat → Nat → Prop} {e : Event} {es : List Event}

/-! ## 1. Runs of tasks that only exchange messages -/

/-- A task creates tasks and mailboxes, yields, sends, or receives into a buffer at least as long as
    its ring. -/
def Kernel.Messaging (k : Kernel) : Event → Prop
  | .call (.tskCreate ..) | .call .tskYield | .call (.mbxCreate _) | .call (.mbxSend ..)
  | .call (.mbxSendNb ..) | .resume => True
  | .call (.mbxRecv buf len) | .call (.mbxRecvNb buf len) =>
      buf.isSome → (k.ring (.task k.current)).capacity ≤ len
  | _ => False

instance (k : Kernel) (e : Event) : Decidable (k.Messaging e) :=
  match e with
  | .call (.tskCreate ..) | .call .tskYield | .call (.mbxCreate _) | .call (.mbxSend ..)
  | .call (.mbxSendNb ..) | .resume => .isTrue trivial
  | .call (.mbxRecv buf len) => inferInstanceAs
      (Decidable (buf.isSome → (k.ring (.task k.current)).capacity ≤ len))
  | .call (.mbxRecvNb buf len) => inferInstanceAs
      (Decidable (buf.isSome → (k.ring (.task k.current)).capacity ≤ len))
  | .call (.memAlloc _) | .call (.memDealloc _) | .call .tskExit | .call (.tskSetPrio ..)
  | .call (.tskGet ..) | .call .tskGettid | .call (.tskLs ..) | .call (.mbxLs ..)
  | .call (.mbxGet _) | .call (.rtTskSet _) | .call .rtTskSusp | .call (.rtTskGet ..) | .timer ..
  | .overwrite .. => .isFalse id

theorem Kernel.Messaging.plain (h : k.Messaging e) : Kernel.Within (Call.plain · = true) e := by
  cases e with
  | call c => cases c <;> first | exact rfl | exact absurd h id
  | resume => exact trivial
  | timer => exact h
  | overwrite => exact h

theorem Kernel.Messaging.tame (h : k.Messaging e) (hrt : NoRt k) : k.Tame e := by
  have hnot : ∀ {p : Prop}, k.cur.realTime = true → p := fun e => by
    rw [show k.cur.realTime = false from hrt k.current] at e
    cases e
  cases e with
  | call c => cases c <;> first | exact trivial | exact hnot | exact absurd h id
  | _ => exact trivial

/-- No message is longer than its ring. -/
theorem Flow.length_le (h : Flow R k L q tr) {x : List UInt8} (hx : x ∈ q m) :
    x.length ≤ (k.ring m).capacity := by
  obtain ⟨heap, hR⟩ := h.rings
  refine le_trans ?_ (hR.rep m (h.active_of_mem hx)).le
  exact (List.sublist_flatten_of_mem hx).length_le

/-- **The step lemma** for these events. -/
theorem Channel.step (h : Channel (· ≤ ·) k L q tr) (hrt : NoRt k) {s' : Kernel × Traffic}
    (hl : k.Legal e) (he : k.Messaging e) (hs : Traffic.step (k, tr) e = some s') :
    Carried (· ≤ ·) s'.1 s'.2 ∧ NoRt s'.1 := by
  obtain ⟨r, hx, htr⟩ := Traffic.step_eq_some.mp hs
  obtain ⟨L', -, hno, -⟩ := h.rest.step_kept hrt hl he.plain (he.tame hrt)
    (Kernel.step_eq_some.mpr ⟨r, hx⟩)
  refine ⟨htr ▸ (h.exec hl (he.tame hrt) ?_ ?_ ?_).of_ok hx, hno⟩
  · rintro b len rfl
    exact he
  · rintro - p hp x hx
    obtain ⟨-, -, -, hlen, -⟩ := h.resumes hp
    exact (h.length_le (List.mem_of_mem_head? hx)).trans hlen
  · rintro t buf rfl
    exact he

/-- The books are empty after the boot. -/
theorem Initial.channel (h : Initial k L) : Channel R k L (fun _ => []) .empty where
  rest := h.rest
  rings := h.rings
  copied := fun m => ⟨[], by rw [h.waiting]; rfl, rfl⟩
  waiting := fun m t ht => by
    rw [h.waiting] at ht
    exact absurd ht List.not_mem_nil
  idle := fun t ht => absurd ht (h.idle t)
  pend := fun t p hp => by
    rw [h.pend] at hp
    cases hp
  unused := fun _ _ => rfl
  full := fun m t l buf hL => by
    rw [h.waiting] at hL
    cases hL

/-- **The run lemma.** -/
theorem Channel.run {s' : Kernel × Traffic} (hb : Booted k)
    (h : Allowed Traffic.step (fun s e => s.1.Legal e ∧ s.1.Messaging e) (k, .empty) es)
    (hr : Lib.run Traffic.step (k, .empty) es = some s') : Carried (· ≤ ·) s'.1 s'.2 := by
  obtain ⟨L, hL⟩ := hb.initial
  exact (run_reached (fun s => Carried (· ≤ ·) s.1 s.2 ∧ NoRt s.1)
    (fun _ _ _ ⟨⟨_, _, h⟩, hrt⟩ hok hs => h.step hrt hok.1 hok.2 hs)
    ⟨hL.channel.carried, hL.noRt⟩ h hr).1

/-! ## 2. The two results -/

/-- The ring of the mailbox holds the messages `q`; a mailbox that does not exist holds none. -/
def Kernel.RingHolds (k : Kernel) (m : MbxId) (q : List (List UInt8)) : Prop :=
  if (k.mailbox m).active = true then (k.ring m).Rep k.bytes q else q = []

theorem Kernel.RingHolds.unique {x y : List (List UInt8)} (hx : k.RingHolds m x)
    (hy : k.RingHolds m y) : x = y := by
  unfold Kernel.RingHolds at hx hy
  split at hx
  next hact =>
    rw [if_pos hact] at hy
    exact hx.unique hy
  next hact =>
    rw [if_neg hact] at hy
    exact hx.trans hy.symm

theorem Flow.ringHolds (h : Flow R k L q tr) (m : MbxId) : k.RingHolds m (q m) := by
  obtain ⟨heap, hR⟩ := h.rings
  unfold Kernel.RingHolds
  split
  next hact => exact hR.rep m hact
  next hact => exact hR.empty m (Bool.eq_false_iff.mpr hact)

/-- **What the owner received, then the ring, then the messages of the waiting senders, in the order
    of the list, is what was sent to the mailbox**, in the order of the calls. -/
structure Fifo (k : Kernel) (tr : Traffic) (m : MbxId) : Prop where
  ring : ∃ q, k.RingHolds m q
  order : ∀ q, k.RingHolds m q → tr.received m ++ q ++
    (k.members (.waiting m)).map (fun t => (k.data t).message) = (tr.sent m).map Prod.snd

theorem Flow.fifo (h : Flow R k L q tr) (m : MbxId) : Fifo k tr m := by
  refine ⟨⟨q m, h.ringHolds m⟩, fun x hx => ?_⟩
  obtain ⟨c, h1, h2⟩ := h.copied m
  rw [hx.unique (h.ringHolds m), h.rest.members, ← h2, h1, List.map_append]
  unfold parcels
  rw [List.map_map]
  rfl

/-- **In every run of tasks that only exchange messages every mailbox is a reliable FIFO channel.** -/
theorem reliable (hb : Booted k) {s' : Kernel × Traffic}
    (h : Allowed Traffic.step (fun s e => s.1.Legal e ∧ s.1.Messaging e) (k, .empty) es)
    (hr : run Traffic.step (k, .empty) es = some s') (m : MbxId) : Fifo s'.1 s'.2 m := by
  obtain ⟨L, q, hC⟩ := Channel.run hb h hr
  exact hC.toFlow.fifo m

/-- The first task fills its ring and yields, the second waits for a message of the third, which
    then waits for room in the ring of the first; they all get what they wait for. -/
def exchange : List Event :=
  let hello : Buf := fun i => if i = 0 then 6 else 0
  [.call (.mbxCreate 8), .call (.mbxSend 14 hello), .call (.tskCreate 7 high 0), .call .tskYield,
    .call (.mbxCreate 64), .call (.mbxRecv (some hello) 64), .call (.mbxSend 15 hello),
    .call (.mbxSend 14 hello), .call .tskYield, .call (.mbxRecvNb (some hello) 8),
    .call .tskYield, .resume, .call (.mbxSendNb 14 hello)]

theorem reliable_exchange : ∃ s', run Traffic.step (bootKernel threeTasks, .empty) exchange =
    some s' ∧ Fifo s'.1 s'.2 (.task 14) :=
  have hr : (run Traffic.step (bootKernel threeTasks, .empty) exchange).isSome = true := by
    decide +kernel
  ⟨_, (Option.some_get hr).symm, reliable booted_threeTasks (by decide +kernel)
    (Option.some_get hr).symm _⟩

/-- **Nobody waits in vain**: an owner that waits for a message finds its ring and its waiting list
    empty, and the message of the first waiting sender does not fit in the ring, which is not
    empty. -/
structure NoNeedlessWait (k : Kernel) (m : MbxId) : Prop where
  owner : ∀ t, m = .task t → (k.tcb t).state = .blkRecv →
    k.RingHolds m [] ∧ (k.ring m).currentSize = 0 ∧ k.members (.waiting m) = []
  sender : ∀ t l, k.members (.waiting m) = t :: l → (k.ring m).currentSize ≠ 0 ∧
    ∃ buf, (k.tcb t).messageHeader = some buf ∧
      (k.ring m).capacity < (k.ring m).currentSize + buf.length

theorem Channel.noNeedlessWait (h : Channel R k L q tr) (m : MbxId) : NoNeedlessWait k m := by
  obtain ⟨heap, hR⟩ := h.rings
  refine ⟨fun t e hs => ?_, fun t l hL => ?_⟩
  · subst e
    obtain ⟨hact, hq⟩ := h.idle t hs
    have hholds := h.toFlow.ringHolds (.task t)
    rw [hq] at hholds
    refine ⟨hholds, (hR.rep _ hact).size_eq_zero.mpr hq, ?_⟩
    rw [h.rest.members]
    exact h.waiting_empty hq
  · rw [h.rest.members] at hL
    have ht : t ∈ L (.waiting m) := hL ▸ List.mem_cons_self
    obtain ⟨buf, hb, -, hfit⟩ := h.waiting m t ht
    have hsize := (hR.rep m (h.active_of_waiting ht)).size
    have hfull := h.full m t l buf hL hb
    rw [hsize]
    exact ⟨by omega, buf, hb, hfull⟩

/-- **In every run of tasks that only exchange messages nobody waits in vain.** -/
theorem no_lost_wakeup (hb : Booted k) {s' : Kernel × Traffic}
    (h : Allowed Traffic.step (fun s e => s.1.Legal e ∧ s.1.Messaging e) (k, .empty) es)
    (hr : run Traffic.step (k, .empty) es = some s') (m : MbxId) : NoNeedlessWait s'.1 m := by
  obtain ⟨L, q, hC⟩ := Channel.run hb h hr
  exact hC.noNeedlessWait m

/-- The owner 15 waits for a message, and later the task 13 for room in the ring of 14. -/
theorem no_lost_wakeup_exchange :
    (∃ s', run Traffic.step (bootKernel threeTasks, .empty) (exchange.take 6) = some s' ∧
      (s'.1.tcb 15).state = .blkRecv ∧ NoNeedlessWait s'.1 (.task 15)) ∧
    ∃ s', run Traffic.step (bootKernel threeTasks, .empty) (exchange.take 8) = some s' ∧
      s'.1.members (.waiting (.task 14)) = [13] ∧ NoNeedlessWait s'.1 (.task 14) := by
  constructor
  · obtain ⟨s', hr, hs⟩ := (Option.any_eq_true (fun s' : Kernel × Traffic =>
      decide ((s'.1.tcb 15).state = .blkRecv))
      (run Traffic.step (bootKernel threeTasks, .empty) (exchange.take 6))).mp (by decide +kernel)
    exact ⟨s', hr, of_decide_eq_true hs,
      no_lost_wakeup booted_threeTasks (by decide +kernel) hr _⟩
  · obtain ⟨s', hr, hs⟩ := (Option.any_eq_true (fun s' : Kernel × Traffic =>
      decide (s'.1.members (.waiting (.task 14)) = [13]))
      (run Traffic.step (bootKernel threeTasks, .empty) (exchange.take 8))).mp (by decide +kernel)
    exact ⟨s', hr, of_decide_eq_true hs,
      no_lost_wakeup booted_threeTasks (by decide +kernel) hr _⟩

end Rtx
