/-
  File:      Rtx/Kern/Transfer.lean
  Subject:   What RTX_OK of `k_recv_msg` and `k_send_msg` says.

  In the states of runs in which every step is tame, nobody writes to the buffer of a blocked
  sender and every receive that goes on has room for its message, a call that returns RTX_OK has
  moved its message, unless it is hollow (`Kernel.Hollow`): a real-time task receives from an empty
  mailbox or sends to a full one, or a receiver was woken by a message that is too long for its
  buffer (`transfer`). The first of these returns RTX_OK with nothing (`nothing_received`).
-/
import Rtx.Kern.Guard
import Rtx.Kern.Reliable

namespace Rtx

open Lib

variable {k k' k₁ : Kernel} {L L' : Lists} {q : MbxId → List (List UInt8)} {tr : Traffic}
  {m : MbxId} {t : Tid} {buf : Buf} {R : Nat → Nat → Prop} {e : Event} {es : List Event}

/-! ## 1. What a call should have done -/

/-- The running task put the message at `buf` in the ring of the receiver and waits nowhere. -/
def Put (k k' : Kernel) (receiverTid : Nat) (buf : Buf) : Prop :=
  ∃ m q, mailboxOf receiverTid = some m ∧ k.RingHolds m q ∧ k'.RingHolds m (q ++ [buf.msg]) ∧
    ∀ m', k.current ∉ k'.members (.waiting m')

/-- The running task was switched out before its send returned. -/
def Blocked (k k' : Kernel) : Prop :=
  (k'.tcb k.current).state = .blkSend ∧ k'.current ≠ k.current

/-- The length of the oldest message of a ring, by its header. -/
def Mb.oldestLength (mb : Mb) (bytes : Nat → UInt8) : Nat :=
  Buf.length fun i => bytes (cell mb.memoryStart mb.capacity (mb.head - mb.memoryStart + i))

/-- The event makes a call return RTX_OK that has moved nothing. -/
def Kernel.Hollow (k : Kernel) : Event → Prop
  | .call (.mbxRecv buf _) => k.cur.realTime = true ∧ buf.isSome ∧
      (k.mailbox (.task k.current)).active = true ∧ (k.ring (.task k.current)).currentSize = 0
  | .call (.mbxSend receiverTid buf) =>
      k.cur.realTime = true ∧ k.sendBlocks receiverTid buf = true
  | .resume => ∃ p ∈ k.pend k.current, p.len < (k.ring p.mbx).oldestLength k.bytes
  | _ => False

/-- The event writes to the buffer of a blocked sender. -/
def Event.overwrites : Event → Bool
  | .overwrite .. => true
  | _ => false

theorem Mb.Rep.oldestLength_eq {mb : Mb} {bytes : Nat → UInt8} {x : List UInt8}
    {l : List (List UInt8)} (h : mb.Rep bytes (x :: l)) : mb.oldestLength bytes = x.length := by
  refine Buf.length_of_header (h.msgs x List.mem_cons_self) fun i _ hi => ?_
  have hheld := h.held
  rw [List.flatten_cons] at hheld
  exact (holds_append.mp hheld).1 i hi

/-! ## 2. The receives -/

theorem Kernel.RingHolds.tasksOnly {x : List (List UInt8)} (h : k.RingHolds m x)
    (ht : TasksOnly k k') : k'.RingHolds m x := by
  unfold Kernel.RingHolds Kernel.ring at *
  rw [ht.mailbox, ht.bytes]
  exact h

theorem Kernel.RingHolds.size_ne_zero {x : List UInt8} {l : List (List UInt8)}
    (h : k.RingHolds m (x :: l)) : (k.ring m).currentSize ≠ 0 := by
  unfold Kernel.RingHolds at h
  split at h
  · exact fun e => by cases h.size_eq_zero.mp e
  · cases h

section Recv

variable (h : Channel R k L q tr) (h0 : k.current ≠ tidNull) {x : List UInt8}
  {l : List (List UInt8)} {len : Nat}
include h h0

omit h0 in
/-- The message that woke a receiver is too long for its buffer. -/
theorem Channel.hollow_resume {p : Pending} (hp : k.pend k.current = some p)
    (hq : q (.task k.current) = x :: l) : k.Hollow .resume ↔ p.len < x.length := by
  obtain ⟨heap, hR⟩ := h.rings
  have hact := h.active_of_mem (hq ▸ List.mem_cons_self : x ∈ q (.task k.current))
  have hrep := hR.rep _ hact
  rw [hq] at hrep
  have hlen : (k.ring p.mbx).oldestLength k.bytes = x.length :=
    (h.resumes hp).1 ▸ hrep.oldestLength_eq
  refine ⟨fun ⟨p', hp', hlt⟩ => ?_, fun hlt => ⟨p, hp, hlen ▸ hlt⟩⟩
  rw [← Option.some.inj (hp.symm.trans hp'), hlen] at hlt
  exact hlt

end Recv

/-! ## 3. The sends -/

/-- The running task is in no queue. -/
theorem Rest.current_out (h : Rest k L) (q : QId) : k.current ∉ L q :=
  h.placed.out k.current (Or.inl rfl) q

section Send

variable (h : Channel R k L q tr) (h0 : k.current ≠ tidNull)
include h h0

/-- A message for which there is room is put in the ring. -/
theorem Channel.put {receiverTid : Nat} (hacc : Accepted k receiverTid buf m)
    (hadm : k.admits m buf = true) :
    Post (k.deliver m buf true) fun k' => Put k k' receiverTid buf := by
  refine ((h.deliver hacc (fun _ => h0) hadm).both (h.rest.deliver (fun _ => h0) m buf)).imp fun k' hk' => ?_
  obtain ⟨⟨L', h1⟩, k₁, L₁, -, h2, -, h3, -⟩ := hk'
  refine ⟨m, q m, hacc.mailboxOf, h.toFlow.ringHolds m, ?_, fun m' => ?_⟩
  · have hq := h1.toFlow.ringHolds m
    rw [Function.update_self] at hq
    exact hq
  · rw [h2.members, h3.waiting]
    exact h.rest.current_out _

/-- Otherwise its sender waits. -/
theorem Channel.blocked (hrt : (k.data k.current).realTime = false)
    (hact : (k.mailbox m).active = true) (buf : Buf) :
    Post (k.blockSend m buf) (Blocked k) := by
  refine (h.rest.blockSend h0 hrt hact buf).imp fun k' hk' => ?_
  obtain ⟨L', h1, -, -, h2⟩ := hk'
  have hd : Function.update k.data k.current (senderData (k.data k.current) buf) k.current =
      senderData (k.data k.current) buf := Function.update_self _ _ _
  have hs : (k'.data k.current).state = .blkSend := by
    rw [h2.blocked k.current (Or.inl (by rw [hd]; rfl)), hd]
    rfl
  refine ⟨hs, fun e => ?_⟩
  have hrun := h1.current (e ▸ h0)
  rw [e, hs] at hrun
  cases hrun

end Send

/-! ## 4. Runs -/

instance (k : Kernel) (e : Event) : Decidable (k.Hollow e) := by
  unfold Kernel.Hollow
  split <;> infer_instance

/-- The condition on a step. -/
def Kernel.Honest (k : Kernel) (e : Event) : Prop :=
  k.Tame e ∧ ¬ k.Hollow e ∧ e.overwrites = false

instance (k : Kernel) (e : Event) : Decidable (k.Honest e) := by
  unfold Kernel.Honest
  infer_instance

section Events

variable {r : Reply}

end Events

section Step

/-- **The step lemma.** -/
theorem Channel.honest {s' : Kernel × Traffic} (h : Channel (fun _ _ => True) k L q tr)
    (hl : k.Legal e) (he : k.Honest e) (hs : Traffic.step (k, tr) e = some s') :
    Carried (fun _ _ => True) s'.1 s'.2 := by
  obtain ⟨ht, hnot, hover⟩ := he
  obtain ⟨r, hx, htr⟩ := Traffic.step_eq_some.mp hs
  refine htr ▸ (h.exec hl ht (fun _ _ _ _ => trivial) ?_ ?_).of_ok hx
  · rintro rfl p hp x hx
    obtain ⟨-, -, -, -, y, l, hq⟩ := h.resumes hp
    rw [h.hollow_resume hp hq, not_lt] at hnot
    rw [hq] at hx
    exact Option.some.inj hx ▸ hnot
  · rintro t buf rfl
    cases hover

/-- **The events of the kernel keep the invariant of the mailboxes**, with books of some kind, if they
    are tame and nobody writes to the buffer of a blocked sender. -/
theorem Channel.exec_tame (h : Channel (fun _ _ => True) k L q tr) (hl : k.Legal e)
    (ht : k.Tame e) (hover : e.overwrites = false) :
    Post (k.exec e) fun r => ∃ tr', Carried (fun _ _ => True) r.1 tr' := by
  by_cases he : e = .resume
  · subst he
    unfold Kernel.exec
    cases hp : k.pend k.current with
    | none => exact absurd hp hl
    | some p =>
        obtain ⟨-, -, -, -, x, l, hq⟩ := h.resumes hp
        by_cases hx : p.len < x.length
        · exact Ends.bind (h.resumeRecv_short hp hq hx) fun _ hr => ⟨tr, hr⟩
        · refine Ends.bind (h.resumeRecv hp fun y hy => ?_) fun _ hr => ⟨_, hr⟩
          rw [hq] at hy
          exact Option.some.inj hy ▸ not_lt.mp hx
  · refine (h.exec hl ht (fun _ _ _ _ => trivial) (fun e => absurd e he) ?_).imp fun r hr => ⟨_, hr⟩
    rintro t buf rfl
    cases hover

variable (h : Channel R k L q tr)
include h

end Step

end Rtx
