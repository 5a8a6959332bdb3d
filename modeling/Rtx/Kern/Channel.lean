/-
  File:      Rtx/Kern/Channel.lean
  Subject:   The messages of a mailbox on their way from the senders to the owner.

  `Traffic` is what a run has seen of the mailboxes: the messages of the sends that were not
  refused, and those the owners received. `Channel R k L q tr` is the invariant that ties it to the
  state: what was sent to a mailbox is what its owner received, then what its ring holds (`q`),
  then what the tasks of its waiting list want to send; nobody waits for a message that is there,
  and nobody waits for room that is there.

  A message takes one of three ways: into the ring at once (`Channel.deliver`), to the end of the
  waiting list (`Channel.blockSend`) and from its head into the ring (`Flow.round`).
-/
import Rtx.Kern.Boot

namespace Rtx

open Lib

/-! ## 1. The books of a run -/

/-- What was sent to every mailbox, with the senders, and what its owner received. -/
structure Traffic where
  sent : MbxId → List (Tid × List UInt8)
  received : MbxId → List (List UInt8)

/-- The mailbox a message to this id goes to. -/
def mailboxOf (receiverTid : Nat) : Option MbxId :=
  if receiverTid = tidUart then some .uart
  else if h : receiverTid < 16 then some (.task ⟨receiverTid, h⟩) else none

namespace Traffic

def empty : Traffic := ⟨fun _ => [], fun _ => []⟩

def send (tr : Traffic) (m : MbxId) (t : Tid) (x : List UInt8) : Traffic :=
  { tr with sent := Function.update tr.sent m (tr.sent m ++ [(t, x)]) }

def receive (tr : Traffic) (m : MbxId) (x : List UInt8) : Traffic :=
  { tr with received := Function.update tr.received m (tr.received m ++ [x]) }

/-- An event and the reply to it, entered in the books. -/
def record (tr : Traffic) (k : Kernel) : Event → Reply → Traffic
  | .call (.mbxSend receiverTid buf), .result r | .call (.mbxSendNb receiverTid buf), .result r =>
      if r = rtxErr then tr
      else
        match mailboxOf receiverTid with
        | some m => tr.send m k.current buf.msg
        | none => tr
  | .call (.mbxRecv _ _), .received r buf | .call (.mbxRecvNb _ _), .received r buf
  | .resume, .received r buf =>
      if r = rtxOk then tr.receive (.task k.current) buf.msg else tr
  | _, _ => tr

/-- One event of a run that keeps books. -/
def step (s : Kernel × Traffic) (e : Event) : Option (Kernel × Traffic) :=
  match s.1.exec e with
  | .ok (k, r) => some (k, s.2.record s.1 e r)
  | .error _ => none

end Traffic

/-- The message a blocked sender has at hand. -/
def TcbData.message (d : TcbData) : List UInt8 :=
  match d.messageHeader with
  | some buf => buf.msg
  | none => []

variable {k k' k₁ : Kernel} {L L' L₁ : Lists} {q q₁ : MbxId → List (List UInt8)} {tr : Traffic}
  {m : MbxId} {t u : Tid} {buf : Buf} {R : Nat → Nat → Prop}

/-! ## 2. The invariant -/

/-- What the tasks of a waiting list want to send. -/
def parcels (d : Tid → TcbData) (l : List Tid) : List (Tid × List UInt8) :=
  l.map fun t => (t, (d t).message)

/-- **Every message is somewhere**, once and in its place. `R` is what is known of the size of a
    ring and the length of the buffer of a receiver that waits for it. -/
structure Flow (R : Nat → Nat → Prop) (k : Kernel) (L : Lists) (q : MbxId → List (List UInt8))
    (tr : Traffic) : Prop where
  rest : Rest k L
  rings : ∃ h, Rings k h q
  /-- What was copied into the ring, and what waits for it. -/
  copied : ∀ m, ∃ c, tr.sent m = c ++ parcels k.data (L (.waiting m)) ∧
    c.map Prod.snd = tr.received m ++ q m
  waiting : ∀ m t, t ∈ L (.waiting m) → ∃ buf, (k.data t).messageHeader = some buf ∧
    msgHdrSize ≤ buf.length ∧ buf.length ≤ (k.ring m).capacity
  idle : ∀ t, (k.data t).state = .blkRecv → (k.mailbox (.task t)).active = true ∧ q (.task t) = []
  pend : ∀ t p, k.pend t = some p → p.mbx = .task t ∧ (k.mailbox (.task t)).active = true ∧
    R (k.ring (.task t)).capacity p.len ∧ ((k.data t).state = .blkRecv ∨ q (.task t) ≠ [])
  unused : ∀ m, (k.mailbox m).active = false → tr.received m = []

/-- There is no room for the message of the first waiting sender. -/
def Full (k : Kernel) (L : Lists) (q : MbxId → List (List UInt8)) (m : MbxId) : Prop :=
  ∀ t l buf, L (.waiting m) = t :: l → (k.data t).messageHeader = some buf →
    (k.ring m).capacity < (q m).flatten.length + buf.length

/-- **The invariant of the mailboxes** between two events. -/
structure Channel (R : Nat → Nat → Prop) (k : Kernel) (L : Lists)
    (q : MbxId → List (List UInt8)) (tr : Traffic) : Prop extends Flow R k L q tr where
  full : ∀ m, Full k L q m

/-- `can_fit` on a ring that holds the messages `q`. -/
theorem Rings.canFit {h : Heap} (hR : Rings k h q) (hm : (k.mailbox m).active = true)
    (hb : msgHdrSize ≤ buf.length) :
    (k.ring m).canFit buf.length = 1 ↔ (q m).flatten.length + buf.length ≤ (k.ring m).capacity :=
  (hR.rep m hm).canFit_iff (Nat.lt_of_lt_of_le (by decide) hb)

section Basics

variable (h : Flow R k L q tr)
include h

theorem Flow.active_of_waiting (ht : t ∈ L (.waiting m)) : (k.mailbox m).active = true := by
  by_contra hne
  rw [h.rest.inactive m (Bool.eq_false_iff.mpr hne)] at ht
  exact List.not_mem_nil ht

/-- Only a mailbox that exists holds messages. -/
theorem Flow.active_of_mem {x : List UInt8} (hx : x ∈ q m) : (k.mailbox m).active = true := by
  obtain ⟨_, hR⟩ := h.rings
  by_contra hne
  rw [hR.empty m (Bool.eq_false_iff.mpr hne)] at hx
  exact List.not_mem_nil hx

/-- The loop of the receives ends when there is no room. -/
theorem Flow.full_of_stopped (hs : Stopped k L m) : Full k L q m := by
  intro t l buf hL hb
  obtain ⟨_, hR⟩ := h.rings
  have ht : t ∈ L (.waiting m) := hL ▸ List.mem_cons_self
  obtain ⟨buf', hb', hhdr, -⟩ := h.waiting m t ht
  obtain rfl := Option.some.inj (hb.symm.trans hb')
  exact not_le.mp fun hle => hs t l buf hL hb
    ((hR.canFit (h.active_of_waiting ht) hhdr).mpr hle)

end Basics

/-- Nobody waits for an empty ring: every message that was accepted fits there. -/
theorem Channel.waiting_empty (h : Channel R k L q tr) (hq : q m = []) : L (.waiting m) = [] := by
  cases hL : L (.waiting m) with
  | nil => rfl
  | cons t l =>
      obtain ⟨buf, hb, -, hfit⟩ := h.waiting m t (hL ▸ List.mem_cons_self)
      have := h.full m t l buf hL hb
      rw [hq, List.flatten_nil, List.length_nil, Nat.zero_add] at this
      exact absurd hfit this.not_ge

/-! ## 3. What leaves the mailboxes alone -/

theorem message_congr {d d' : TcbData} (h : d'.messageHeader = d.messageHeader) :
    d'.message = d.message := by
  unfold TcbData.message
  rw [h]

theorem message_of_header {d : TcbData} (h : d.messageHeader = some buf) : d.message = buf.msg := by
  unfold TcbData.message
  rw [h]

theorem parcels_congr {d d' : Tid → TcbData} {l : List Tid}
    (h : ∀ u ∈ l, (d' u).messageHeader = (d u).messageHeader) : parcels d' l = parcels d l :=
  List.map_congr_left fun u hu => by rw [message_congr (h u hu)]

/-- No message moves, and nobody begins or stops waiting for one. -/
structure Calm (k k' : Kernel) (L L' : Lists) : Prop where
  waiting : ∀ m, L' (.waiting m) = L (.waiting m)
  header : ∀ u, (k.data u).state = .blkSend → (k'.data u).messageHeader = (k.data u).messageHeader
  recv : ∀ u, (k'.data u).state = .blkRecv ↔ (k.data u).state = .blkRecv
  active : ∀ m, (k'.mailbox m).active = (k.mailbox m).active
  capacity : ∀ m, (k'.ring m).capacity = (k.ring m).capacity
  pend : k'.pend = k.pend

/-- Events in which no message moves are calm. -/
theorem Still.calm (h : Still k.data k'.data L L') (hm : k'.mailbox = k.mailbox)
    (hp : k'.pend = k.pend) : Calm k k' L L' where
  waiting := h.waiting
  header := fun u hu => (h.blocked u (Or.inl hu)).2
  recv := fun u => ⟨h.recv u, fun hu => (h.blocked u (Or.inr hu)).1.trans hu⟩
  active := fun m => by rw [hm]
  capacity := fun m => by
    unfold Kernel.ring
    rw [hm]
  pend := hp

/-- Nothing changes that the mailboxes see. -/
theorem Calm.same (hd : k'.data = k.data) (hm : k'.mailbox = k.mailbox) (hp : k'.pend = k.pend) :
    Calm k k' L L :=
  Still.calm (hd ▸ Still.refl k.data L) hm hp

section Calm

variable (hc : Calm k k' L L') (hR : Rest k' L')
include hc

theorem Flow.header (h : Flow R k L q tr) (ht : t ∈ L (.waiting m)) :
    (k'.data t).messageHeader = (k.data t).messageHeader :=
  hc.header t (h.rest.placed.state_of_mem ht)

include hR in
theorem Flow.calm (h : Flow R k L q tr) (hg : ∃ h, Rings k' h q) : Flow R k' L' q tr where
  rest := hR
  rings := hg
  copied := fun m => by
    rw [hc.waiting, parcels_congr fun u hu => h.header hc hu]
    exact h.copied m
  waiting := fun m t ht => by
    rw [hc.waiting] at ht
    rw [h.header hc ht, hc.capacity]
    exact h.waiting m t ht
  idle := fun t ht => by
    rw [hc.active]
    exact h.idle t ((hc.recv t).mp ht)
  pend := fun t p hp => by
    obtain ⟨h1, h2, h3, h4⟩ := h.pend t p (hc.pend ▸ hp)
    rw [hc.active, hc.capacity]
    exact ⟨h1, h2, h3, h4.imp_left (hc.recv t).mpr⟩
  unused := fun m hm => h.unused m ((hc.active m).symm.trans hm)

theorem Flow.full_calm (h : Flow R k L q tr) (hf : Full k L q m) : Full k' L' q m := by
  intro t l buf hL hb
  rw [hc.waiting] at hL
  rw [h.header hc (hL ▸ List.mem_cons_self)] at hb
  rw [hc.capacity]
  exact hf t l buf hL hb

include hR in
theorem Channel.calm (h : Channel R k L q tr) (hg : ∃ h, Rings k' h q) : Channel R k' L' q tr :=
  ⟨h.toFlow.calm hc hR hg, fun m => h.toFlow.full_calm hc (h.full m)⟩

end Calm

/-- A refused call. -/
theorem Channel.setErrno (h : Channel R k L q tr) (e : Errno) : Channel R (k.setErrno e) L q tr :=
  have ht : TasksOnly k (k.setErrno e) := ⟨⟨rfl, rfl, rfl⟩, rfl, rfl⟩
  have hc : Calm k (k.setErrno e) L L := Calm.same rfl rfl rfl
  h.calm hc (h.rest.frame rfl rfl rfl rfl (fun _ => rfl) rfl) (h.rings.imp fun _ hg => hg.tasksOnly ht)

/-- Only the tasks change, and no message moves. -/
theorem Channel.still (h : Channel R k L q tr) (hR : Rest k' L') (ht : TasksOnly k k')
    (hs : Still k.data k'.data L L') : Channel R k' L' q tr :=
  h.calm (hs.calm ht.mailbox ht.pend) hR (h.rings.imp fun _ hg => hg.tasksOnly ht)

/-! ## 4. The rings -/

theorem Mb.pushBuffer_capacity (mb : Mb) (bytes : Nat → UInt8) (buf : Buf) :
    Post (mb.pushBuffer bytes buf) fun r => r.2.1.capacity = mb.capacity := by
  unfold Mb.pushBuffer
  exact Ends.ite (fun _ => rfl) fun _ => Ends.bind Ends.trivial fun _ _ => rfl

theorem Mb.popBuffer_capacity (mb : Mb) (bytes : Nat → UInt8) (buf : Buf) (len : Nat) :
    Post (mb.popBuffer bytes buf len) fun r => r.1.capacity = mb.capacity := by
  unfold Mb.popBuffer
  refine Ends.ite (fun _ => rfl) fun _ => Ends.ite (fun _ => rfl) fun _ => ?_
  refine Ends.bind Ends.trivial fun r _ => Ends.ite (fun _ => rfl) fun _ => ?_
  generalize sub32 r.1.length msgHdrSize = n
  refine Ends.bind Ends.trivial fun r' _ => ?_
  generalize sub32 mb.currentSize r'.1.length = size
  exact rfl

theorem Kernel.setRing_capacity {mb : Mb} (hcap : mb.capacity = (k.ring m).capacity) (m' : MbxId) :
    ((k.setRing m mb).ring m').capacity = (k.ring m').capacity := by
  change ((Function.update k.mailbox m _) m').memoryBuffer.capacity = _
  rw [Function.update_apply]
  split
  next e => exact e ▸ hcap
  · rfl

/-- The mailboxes that exist and the sizes of their rings. -/
def SameRings (k k' : Kernel) : Prop :=
  ∀ m, (k'.mailbox m).active = (k.mailbox m).active ∧ (k'.ring m).capacity = (k.ring m).capacity

theorem SameRings.refl (k : Kernel) : SameRings k k := fun _ => ⟨rfl, rfl⟩

theorem SameRings.trans (h : SameRings k k₁) (h' : SameRings k₁ k') : SameRings k k' := fun m =>
  ⟨(h' m).1.trans (h m).1, (h' m).2.trans (h m).2⟩

theorem TasksOnly.sameRings (h : TasksOnly k k') : SameRings k k' := fun m => by
  unfold Kernel.ring
  rw [h.mailbox]
  exact ⟨rfl, rfl⟩

theorem Kernel.pushBuffer_sameRings (hk : k.pushBuffer m buf = .ok k₁) : SameRings k k₁ := by
  obtain ⟨bytes, mb, r, h1, rfl⟩ := Kernel.pushBuffer_eq_ok hk
  exact fun m' => ⟨k.setRing_active m mb m',
    Kernel.setRing_capacity (((k.ring m).pushBuffer_capacity k.bytes buf).of_ok h1) m'⟩

theorem Kernel.popBuffer_sameRings {buf' : Buf} {len : Nat} {r : Int}
    (hk : k.popBuffer m buf len = .ok (k₁, buf', r)) : SameRings k k₁ := by
  obtain ⟨mb, h1, rfl⟩ := Kernel.popBuffer_eq_ok hk
  exact fun m' => ⟨k.setRing_active m mb m',
    Kernel.setRing_capacity (((k.ring m).popBuffer_capacity k.bytes buf len).of_ok h1) m'⟩

/-! ## 5. Sending -/

/-- The mailbox a send call has checked is that of its receiver. -/
theorem Accepted.mailboxOf {receiverTid : Nat} (h : Accepted k receiverTid buf m) :
    mailboxOf receiverTid = some m := by
  unfold Rtx.mailboxOf
  obtain ⟨rfl, rfl⟩ | ⟨t, rfl, rfl, -⟩ := h.mbx
  · rfl
  · have hlt : t.val ≠ tidUart := fun e => absurd t.isLt (by rw [e]; decide)
    rw [if_neg hlt, dif_pos t.isLt]

/-- Nobody waits, and there is room. -/
theorem Rest.admits_iff (h : Rest k L) :
    k.admits m buf = true ↔ (k.ring m).canFit buf.length = 1 ∧ L (.waiting m) = [] := by
  unfold Kernel.admits
  rw [show (k.queue (.waiting m)).currentSize = _ from (h.placed.rep.chain (.waiting m)).size]
  simp

/-- A woken owner had no message before. -/
theorem wokenData_blocked {d : Tid → TcbData} (hs : (d u).state = .blkSend) :
    wokenData d m u = d u := by
  cases m with
  | uart => rfl
  | task t =>
      unfold wokenData
      simp only
      split
      next hb =>
        rw [Function.update_of_ne]
        rintro rfl
        rw [hs] at hb
        cases hb
      · rfl

theorem wokenData_recv {d : Tid → TcbData} :
    (wokenData d m u).state = .blkRecv ↔ (d u).state = .blkRecv ∧ m ≠ .task u := by
  cases m with
  | uart => simp [wokenData]
  | task t =>
      unfold wokenData
      simp only [ne_eq, MbxId.task.injEq]
      by_cases hb : (d t).state = .blkRecv
      · rw [if_pos hb, Function.update_apply]
        by_cases e : u = t
        · simp [e]
        · simp [e, Ne.symm e]
      · rw [if_neg hb]
        refine ⟨fun h => ⟨h, fun e => hb (e ▸ h)⟩, And.left⟩

section Send

variable (h : Channel R k L q tr) {receiverTid : Nat} (hacc : Accepted k receiverTid buf m)
include h hacc

/-- **The first way: into the ring.** -/
theorem Channel.deliver {preempt : Bool} (h0 : preempt = true → k.current ≠ tidNull)
    (hadm : k.admits m buf = true) : Post (k.deliver m buf preempt) fun k' => ∃ L',
      Channel R k' L' (Function.update q m (q m ++ [buf.msg])) (tr.send m k.current buf.msg) := by
  obtain ⟨hfit, hnone⟩ := h.rest.admits_iff.mp hadm
  obtain ⟨heap, hR⟩ := h.rings
  refine (h.rest.deliver h0 m buf).imp fun k' hk' => ?_
  obtain ⟨k₁, L', h1, h2, h3, h4, -⟩ := hk'
  have hshape : SameRings k k' := (Kernel.pushBuffer_sameRings h1).trans h3.sameRings
  have hpend : k'.pend = k.pend := h3.pend.trans (h.rest.pushBuffer h1).2.2.2
  have hdata : ∀ {m' u}, u ∈ L (.waiting m') → k'.data u = k.data u := fun {m' u} hu => by
    have hs : (k.data u).state = .blkSend := h.rest.placed.state_of_mem hu
    have hw := wokenData_blocked (m := m) hs
    rw [h4.blocked u (Or.inl (by rw [hw]; exact hs)), hw]
  have hrecv : ∀ u, (k'.data u).state = .blkRecv ↔ (k.data u).state = .blkRecv ∧ m ≠ .task u :=
    fun u => ⟨fun hu => wokenData_recv.mp (h4.recv u hu), fun hu => by
      have hw := wokenData_recv.mpr hu
      rw [h4.blocked u (Or.inr hw)]
      exact hw⟩
  have hlists : ∀ m', parcels k'.data (L' (.waiting m')) = parcels k.data (L (.waiting m')) :=
    fun m' => by
      rw [h4.waiting]
      exact parcels_congr fun u hu => congrArg TcbData.messageHeader (hdata hu)
  refine ⟨L', ⟨h2, ⟨heap, (hR.push hacc.active hacc.header hfit h1).tasksOnly h3⟩, fun m' => ?_,
    fun m' t ht => ?_, fun u hu => ?_, fun u p hu => ?_, fun m' hm' => ?_⟩,
    fun m' t l buf' hL hb => ?_⟩
  · obtain ⟨c, h5, h6⟩ := h.copied m'
    rw [hlists]
    by_cases e : m' = m
    · subst e
      rw [hnone, parcels, List.map_nil] at h5 ⊢
      rw [List.append_nil] at h5
      refine ⟨c ++ [(k.current, buf.msg)], ?_, ?_⟩
      · simp [Traffic.send, h5]
      · simp [Traffic.send, h6]
    · refine ⟨c, ?_, ?_⟩
      · simp [Traffic.send, e, h5]
      · simp [Traffic.send, e, h6]
  · rw [h4.waiting] at ht
    rw [hdata ht, (hshape m').2]
    exact h.waiting m' t ht
  · obtain ⟨hb, hne⟩ := (hrecv u).mp hu
    rw [(hshape _).1, Function.update_of_ne hne.symm]
    exact h.idle u hb
  · obtain ⟨h5, h6, hlen, h7⟩ := h.pend u p (hpend ▸ hu)
    refine ⟨h5, (hshape _).1.trans h6, (hshape _).2 ▸ hlen, ?_⟩
    by_cases e : m = .task u
    · subst e
      rw [Function.update_self]
      exact Or.inr (by simp)
    · rw [Function.update_of_ne (Ne.symm e)]
      exact h7.imp_left fun hs => (hrecv u).mpr ⟨hs, e⟩
  · exact h.unused m' ((hshape m').1.symm.trans hm')
  · rw [h4.waiting] at hL
    by_cases e : m' = m
    · rw [e, hnone] at hL
      cases hL
    · rw [hdata (hL ▸ List.mem_cons_self : t ∈ L (.waiting m'))] at hb
      rw [(hshape m').2, Function.update_of_ne e]
      exact h.full m' t l buf' hL hb

/-- **The second way: to the end of the waiting list.** -/
theorem Channel.blockSend (h0 : k.current ≠ tidNull) (hrt : (k.data k.current).realTime = false)
    (hadm : ¬ k.admits m buf = true) :
    Post (k.blockSend m buf) fun k' => ∃ L', Channel R k' L' q (tr.send m k.current buf.msg) := by
  obtain ⟨heap, hR⟩ := h.rings
  refine (h.rest.blockSend h0 hrt hacc.active buf).imp fun k' hk' => ?_
  obtain ⟨L', h1, -, h2, h3⟩ := hk'
  have hrun := h.rest.current h0
  set d := Function.update k.data k.current (senderData (k.data k.current) buf) with hd
  have hself : d k.current = senderData (k.data k.current) buf := Function.update_self _ _ _
  have hcur : k'.data k.current = senderData (k.data k.current) buf := by
    rw [h3.blocked k.current (Or.inl (by rw [hself]; rfl)), hself]
  have hmsg : (k'.data k.current).message = buf.msg := message_of_header (by rw [hcur]; rfl)
  have hdata : ∀ {m' u}, u ∈ L (.waiting m') → k'.data u = k.data u := fun {m' u} hu => by
    have hs : (k.data u).state = .blkSend := h.rest.placed.state_of_mem hu
    have hne : u ≠ k.current := fun e => by
      rw [e, hrun] at hs
      cases hs
    have hw : d u = k.data u := Function.update_of_ne hne _ _
    rw [h3.blocked u (Or.inl (by rw [hw]; exact hs)), hw]
  have hrecv : ∀ u, (k'.data u).state = .blkRecv ↔ (k.data u).state = .blkRecv := fun u => by
    have hiff : (d u).state = .blkRecv ↔ (k.data u).state = .blkRecv := by
      by_cases e : u = k.current
      · rw [e, hself, hrun]
        simp [senderData]
      · rw [hd, Function.update_of_ne e]
    refine ⟨fun hu => hiff.mp (h3.recv u hu), fun hu => ?_⟩
    rw [h3.blocked u (Or.inr (hiff.mpr hu))]
    exact hiff.mpr hu
  have hlist : ∀ m', L' (.waiting m') =
      if m' = m then L (.waiting m) ++ [k.current] else L (.waiting m') := fun m' => by
    rw [h3.waiting, Function.update_apply]
    simp only [QId.waiting.injEq]
  have hold : ∀ m', parcels k'.data (L (.waiting m')) = parcels k.data (L (.waiting m')) :=
    fun m' => parcels_congr fun u hu => congrArg TcbData.messageHeader (hdata hu)
  have hring : k'.ring = k.ring := funext fun m' => congrArg (fun f => (f m').memoryBuffer) h2.mailbox
  have hact : ∀ m', (k'.mailbox m').active = (k.mailbox m').active := fun m' => by rw [h2.mailbox]
  refine ⟨L', ⟨h1, ⟨heap, hR.tasksOnly h2⟩, fun m' => ?_, fun m' t ht => ?_, fun u hu => ?_,
    fun u p hu => ?_, fun m' hm' => h.unused m' ((hact m').symm.trans hm')⟩,
    fun m' t l buf' hL hb => ?_⟩
  · obtain ⟨c, h5, h6⟩ := h.copied m'
    refine ⟨c, ?_, h6⟩
    rw [hlist]
    split
    next e =>
      subst e
      have hnew : parcels k'.data (L (.waiting m') ++ [k.current]) =
          parcels k.data (L (.waiting m')) ++ [(k.current, buf.msg)] := by
        unfold parcels
        rw [List.map_append]
        exact congrArg₂ (· ++ ·) (hold m') (by simp [hmsg])
      rw [hnew, ← List.append_assoc, ← h5]
      exact Function.update_self _ _ _
    next e =>
      rw [hold, ← h5]
      exact Function.update_of_ne e _ _
  · rw [hlist] at ht
    rw [hring]
    split at ht
    next e =>
      rcases List.mem_append.mp ht with ht | ht
      · rw [hdata ht, e]
        exact h.waiting m t ht
      · rw [List.mem_singleton.mp ht, hcur, e]
        exact ⟨buf, rfl, hacc.header, hacc.fits⟩
    · rw [hdata ht]
      exact h.waiting m' t ht
  · rw [hact]
    exact h.idle u ((hrecv u).mp hu)
  · obtain ⟨h5, h6, hlen, h7⟩ := h.pend u p (h2.pend ▸ hu)
    exact ⟨h5, (hact _).trans h6, hring ▸ hlen, h7.imp_left (hrecv u).mpr⟩
  · rw [hring]
    rw [hlist] at hL
    split at hL
    next e =>
      subst e
      cases hw : L (.waiting m') with
      | nil =>
          -- the sender is the first to wait, so there is no room
          rw [hw, List.nil_append] at hL
          obtain ⟨rfl, -⟩ := List.cons.inj hL
          rw [hcur] at hb
          obtain rfl := Option.some.inj hb
          refine not_le.mp fun hle => hadm (h.rest.admits_iff.mpr ⟨?_, hw⟩)
          exact (hR.canFit hacc.active hacc.header).mpr hle
      | cons t' l' =>
          rw [hw, List.cons_append] at hL
          obtain ⟨rfl, -⟩ := List.cons.inj hL
          rw [hdata (hw ▸ List.mem_cons_self : t' ∈ L (.waiting m'))] at hb
          exact h.full m' t' l' buf' hw hb
    · rw [hdata (hL ▸ List.mem_cons_self : t ∈ L (.waiting m'))] at hb
      exact h.full m' t l buf' hL hb

end Send

/-! ## 6. Receiving -/

/-- What the loop of the receive calls does to the mailbox `m`: the first `n` tasks of its waiting
    list have their messages in the ring. -/
structure Served (m : MbxId) (k : Kernel) (L : Lists) (q : MbxId → List (List UInt8))
    (k₁ : Kernel) (L₁ : Lists) (q₁ : MbxId → List (List UInt8)) (n : Nat) : Prop where
  ring : q₁ m = q m ++ ((L (.waiting m)).take n).map fun t => (k.data t).message
  list : L₁ (.waiting m) = (L (.waiting m)).drop n
  rings : ∀ m', m' ≠ m → q₁ m' = q m'
  lists : ∀ m', m' ≠ m → L₁ (.waiting m') = L (.waiting m')
  header : ∀ u, (k₁.data u).messageHeader = (k.data u).messageHeader
  same : SameRings k k₁

theorem Served.refl (m : MbxId) (k : Kernel) (L : Lists) (q : MbxId → List (List UInt8)) :
    Served m k L q k L q 0 :=
  ⟨by simp, rfl, fun _ _ => rfl, fun _ _ => rfl, fun _ => rfl, SameRings.refl k⟩

theorem Served.full {n : Nat} (h : Served m k L q k₁ L₁ q₁ n) {m' : MbxId} (hne : m' ≠ m)
    (hf : Full k L q m') : Full k₁ L₁ q₁ m' := by
  intro t l buf hL hb
  rw [h.lists m' hne] at hL
  rw [h.header] at hb
  rw [h.rings m' hne, (h.same m').2]
  exact hf t l buf hL hb

section Round

variable {l : List Tid} (hr : Round m k L t l buf k' L')
include hr

theorem Round.sameRings : SameRings k k' := by
  obtain ⟨k₁, h1, h2⟩ := hr.pushed
  exact (Kernel.pushBuffer_sameRings h1).trans h2.sameRings

theorem Round.headers (u : Tid) : (k'.data u).messageHeader = (k.data u).messageHeader := by
  rw [hr.data, Function.update_apply]
  split
  next e => rw [e]
  · rfl

/-- One round serves one more. -/
theorem Served.round {k₀ : Kernel} {L₀ : Lists} {q₀ : MbxId → List (List UInt8)} {n : Nat}
    (h : Served m k₀ L₀ q₀ k L q n) :
    Served m k₀ L₀ q₀ k' L' (Function.update q m (q m ++ [buf.msg])) (n + 1) := by
  have hdrop : (L₀ (.waiting m)).drop n = t :: l := h.list.symm.trans hr.list
  have hmsg : (k₀.data t).message = buf.msg := message_of_header ((h.header t).symm.trans hr.header)
  refine ⟨?_, ?_, fun m' hne => ?_, fun m' hne => ?_, fun u => (hr.headers u).trans (h.header u),
    h.same.trans hr.sameRings⟩
  · rw [Function.update_self, h.ring, List.append_assoc]
    congr 1
    have htake : (L₀ (.waiting m)).take (n + 1) = (L₀ (.waiting m)).take n ++ [t] := by
      rw [List.take_add, hdrop]
      rfl
    rw [htake, List.map_append, List.map_singleton, hmsg]
  · rw [hr.waiting, Function.update_self, ← List.drop_drop, hdrop]
    rfl
  · rw [Function.update_of_ne hne]
    exact h.rings m' hne
  · rw [hr.waiting, Function.update_of_ne (fun e => hne (QId.waiting.inj e))]
    exact h.lists m' hne

/-- **The third way: from the head of the waiting list into the ring.** -/
theorem Flow.round (h : Flow R k L q tr) (hR : Rest k' L')
    (hm : ∀ u, m = .task u → (k.data u).state ≠ .blkRecv) :
    Flow R k' L' (Function.update q m (q m ++ [buf.msg])) tr := by
  obtain ⟨heap, hg⟩ := h.rings
  obtain ⟨k₁, h1, h2⟩ := hr.pushed
  have hmem : t ∈ L (.waiting m) := hr.list ▸ List.mem_cons_self
  have hact := h.active_of_waiting hmem
  have hmsg : (k.data t).message = buf.msg := message_of_header hr.header
  obtain ⟨buf', hb', hhdr, -⟩ := h.waiting m t hmem
  obtain rfl := Option.some.inj (hr.header.symm.trans hb')
  have hpend : k'.pend = k.pend := h2.pend.trans (h.rest.pushBuffer h1).2.2.2
  have hrecv : ∀ u, (k'.data u).state = .blkRecv ↔ (k.data u).state = .blkRecv := fun u => by
    rw [hr.data, Function.update_apply]
    split
    next e =>
      have hs : (k.data t).state = .blkSend := h.rest.placed.state_of_mem hmem
      rw [e, hs]
      simp
    · exact Iff.rfl
  have hlist : ∀ m', L' (.waiting m') = if m' = m then l else L (.waiting m') := fun m' => by
    rw [hr.waiting, Function.update_apply]
    simp only [QId.waiting.injEq]
  have hparcels : ∀ l, parcels k'.data l = parcels k.data l := fun l =>
    parcels_congr fun u _ => hr.headers u
  refine ⟨hR, ⟨heap, (hg.push hact hhdr hr.fits h1).tasksOnly h2⟩, fun m' => ?_, fun m' u hu => ?_,
    fun u hu => ?_, fun u p hu => ?_, fun m' hm' => h.unused m' ((hr.sameRings m').1.symm.trans hm')⟩
  · obtain ⟨c, h5, h6⟩ := h.copied m'
    rw [hlist, hparcels]
    split
    next e =>
      subst e
      rw [hr.list, parcels, List.map_cons, hmsg] at h5
      refine ⟨c ++ [(t, buf.msg)], ?_, ?_⟩
      · rw [h5, List.append_assoc]
        rfl
      · rw [List.map_append, h6, Function.update_self, List.append_assoc]
        rfl
    next e =>
      rw [Function.update_of_ne e]
      exact ⟨c, h5, h6⟩
  · rw [hr.headers, (hr.sameRings m').2]
    refine h.waiting m' u ?_
    rw [hlist] at hu
    split at hu
    next e =>
      rw [e, hr.list]
      exact List.mem_cons_of_mem t hu
    · exact hu
  · have hu' := (hrecv u).mp hu
    rw [(hr.sameRings _).1, Function.update_of_ne fun e => hm u e.symm hu']
    exact h.idle u hu'
  · obtain ⟨h5, h6, hlen, h7⟩ := h.pend u p (hpend ▸ hu)
    refine ⟨h5, (hr.sameRings _).1.trans h6, (hr.sameRings _).2 ▸ hlen,
      h7.imp (hrecv u).mpr fun hne => ?_⟩
    rw [Function.update_apply]
    split
    · simp
    · exact hne

end Round

/-- **The loop of the receive calls** makes room for nobody in vain. -/
theorem Flow.release (h : Flow R k L q tr) (hf : ∀ m', m' ≠ m → Full k L q m')
    (hm : ∀ u, m = .task u → (k.data u).state ≠ .blkRecv) :
    Post (k.release m) fun k₁ => ∃ L₁ q₁ n, Channel R k₁ L₁ q₁ tr ∧ Served m k L q k₁ L₁ q₁ n ∧
      k₁.current = k.current ∧ k₁.data k.current = k.data k.current := by
  refine (Rest.release (m := m) (J := fun k₁ L₁ => ∃ q₁ n, Flow R k₁ L₁ q₁ tr ∧
    Served m k L q k₁ L₁ q₁ n ∧ ∀ u, m = .task u → (k₁.data u).state ≠ .blkRecv)
    (fun k₁ L₁ t l buf k₂ L₂ _ hj hr hR₂ => ?_) h.rest
    ⟨q, 0, h, Served.refl m k L q, hm⟩).imp fun k₁ hk₁ => ?_
  · obtain ⟨q₁, n, h1, h2, h3⟩ := hj
    refine ⟨_, n + 1, h1.round hr hR₂ h3, h2.round hr, fun u hu => ?_⟩
    rw [hr.data, Function.update_apply]
    split
    · simp
    · exact h3 u hu
  · obtain ⟨L₁, -, ⟨q₁, n, h1, h2, -⟩, h3, h4, h5, -⟩ := hk₁
    refine ⟨L₁, q₁, n, ⟨h1, fun m' => ?_⟩, h2, h4, h5⟩
    by_cases e : m' = m
    · exact e ▸ h1.full_of_stopped h3
    · exact h2.full e (hf m' e)

section Recv

variable {x : List UInt8} {l : List (List UInt8)} {len : Nat}

/-- **The oldest message is taken**, unless its owner is in the middle of a receive. -/
theorem Flow.take (h : Flow R k L q tr) (hq : q m = x :: l)
    (hp : ∀ t, m = .task t → k.pend t = none) (hlen : x.length ≤ len) (buf : Buf) :
    ∃ k₁, k.popBuffer m buf len = .ok (k₁, buf.put x, 1) ∧ (buf.put x).msg = x ∧
      SameRings k k₁ ∧ Flow R k₁ L (Function.update q m l) (tr.receive m x) := by
  obtain ⟨heap, hR⟩ := h.rings
  have hact := h.active_of_mem (hq ▸ List.mem_cons_self : x ∈ q m)
  have hmsg : IsMsg x := (hR.rep _ hact).msgs x (hq ▸ List.mem_cons_self)
  obtain ⟨k₁, h1, -, h2⟩ := hR.pop hact hq hlen buf
  obtain ⟨hR₁, hs, -, hpend⟩ := h.rest.popBuffer h1
  have hd : k₁.data = k.data := congrArg Tasks.data hs
  have hshape := Kernel.popBuffer_sameRings h1
  refine ⟨k₁, h1, Buf.msg_put hmsg, hshape, hR₁, ⟨heap, h2⟩, fun m' => ?_, fun m' u hu => ?_,
    fun u hu => ?_, fun u p hu => ?_, fun m' hm' => ?_⟩
  · obtain ⟨c, h3, h4⟩ := h.copied m'
    refine ⟨c, by rw [hd]; exact h3, ?_⟩
    by_cases e : m' = m
    · rw [e, hq] at h4
      rw [e]
      simp [Traffic.receive, h4]
    · simp [Traffic.receive, e, h4]
  · rw [hd, (hshape m').2]
    exact h.waiting m' u hu
  · rw [hd] at hu
    obtain ⟨h3, h4⟩ := h.idle u hu
    refine ⟨(hshape _).1.trans h3, ?_⟩
    rw [Function.update_of_ne]
    · exact h4
    · rintro e
      rw [e, hq] at h4
      cases h4
  · rw [hpend] at hu
    obtain ⟨h3, h4, hlen, h5⟩ := h.pend u p hu
    refine ⟨h3, (hshape _).1.trans h4, (hshape _).2 ▸ hlen, ?_⟩
    rw [hd, Function.update_of_ne]
    · exact h5
    · rintro e
      rw [hp u e.symm] at hu
      cases hu
  · have hne : m' ≠ m := fun e => by
      rw [e, (hshape _).1, hact] at hm'
      cases hm'
    refine (Function.update_of_ne hne _ _).trans (h.unused m' ?_)
    exact (hshape m').1.symm.trans hm'

variable (h : Channel R k L q tr) (h0 : k.current ≠ tidNull)
include h h0

/-- **A receive that finds a message**, up to the point where its caller gives way. -/
theorem Channel.takeOldest (hq : q (.task k.current) = x :: l) (hp : k.pend k.current = none)
    (hlen : x.length ≤ len) (buf : Buf) :
    ∃ k₁, k.popBuffer (.task k.current) buf len = .ok (k₁, buf.put x, 1) ∧
      (buf.put x).msg = x ∧ Post (k₁.release (.task k.current)) fun k₂ => ∃ L₂ q₂ n,
        Channel R k₂ L₂ q₂ (tr.receive (.task k.current) x) ∧
        q₂ (.task k.current) = l ++
          ((L (.waiting (.task k.current))).take n).map (fun t => (k.data t).message) ∧
        k₂.current = k.current ∧ k₂.data k.current = k.data k.current := by
  obtain ⟨k₁, h1, h2, h3, h4⟩ := h.toFlow.take hq (fun _ e => MbxId.task.inj e ▸ hp) hlen buf
  obtain ⟨-, hs, hcur, -⟩ := h.rest.popBuffer h1
  have hd : k₁.data = k.data := congrArg Tasks.data hs
  refine ⟨k₁, h1, h2, (h4.release (m := .task k.current) (fun m' hne => ?_) fun u e hb => ?_).imp
    fun k₂ hk₂ => ?_⟩
  · intro t l' buf' hL hb
    rw [hd] at hb
    rw [(h3 m').2, Function.update_of_ne hne]
    exact h.full m' t l' buf' hL hb
  · rw [hd, ← MbxId.task.inj e, h.rest.current h0] at hb
    cases hb
  · obtain ⟨L₂, q₂, n, h5, h6, h7, h8⟩ := hk₂
    refine ⟨L₂, q₂, n, h5, ?_, h7.trans hcur, ?_⟩
    · rw [h6.ring, Function.update_self, hd]
    · rw [hcur, hd] at h8
      exact h8

/-- The receiver gives way. -/
theorem Channel.giveWay (hrt : (k.data k.current).realTime = false) :
    Post k.giveWay fun k' => ∃ L', Channel R k' L' q tr := by
  refine (h.rest.givesWay h0 hrt).imp fun k' hk' => ?_
  obtain ⟨L', h1, -, h2, h3⟩ := hk'
  exact ⟨L', h.still h1 h2 h3.still⟩

/-- **A receive that finds nothing** waits. -/
theorem Channel.blockRecv (hrt : (k.data k.current).realTime = false)
    (hact : (k.mailbox (.task k.current)).active = true) (hq : q (.task k.current) = [])
    (hlen : R (k.ring (.task k.current)).capacity len) (buf : Buf) :
    ∃ s t, (k.setTaskState k.current .blkRecv).kTskRunNew =
        ({ k with toTasks := s, current := t }, true) ∧
      ∃ L', Channel R { k with
        toTasks := s, current := t
        pend := Function.update k.pend k.current (some ⟨.task k.current, buf, len⟩) } L' q tr := by
  obtain ⟨heap, hR⟩ := h.rings
  have hrun := h.rest.current h0
  obtain ⟨s, t, L', h1, h2, -, h3⟩ := h.rest.blockRecv h0 hrt ⟨.task k.current, buf, len⟩
  set d := Function.update k.data k.current { k.data k.current with state := .blkRecv } with hd
  have hself : (d k.current).state = .blkRecv := by rw [hd, Function.update_self]
  have hcur : (s.data k.current).state = .blkRecv := by
    rw [h3.blocked k.current (Or.inr hself), hself]
  have hheader : ∀ {m' u}, u ∈ L (.waiting m') → s.data u = k.data u := fun {m' u} hu => by
    have hs : (k.data u).state = .blkSend := h.rest.placed.state_of_mem hu
    have hne : u ≠ k.current := fun e => by
      rw [e, hrun] at hs
      cases hs
    have hw : d u = k.data u := Function.update_of_ne hne _ _
    rw [h3.blocked u (Or.inl (by rw [hw]; exact hs)), hw]
  have hrecv : ∀ u, u ≠ k.current → ((s.data u).state = .blkRecv ↔ (k.data u).state = .blkRecv) :=
    fun u hne => by
      have hw : d u = k.data u := Function.update_of_ne hne _ _
      refine ⟨fun hu => hw ▸ h3.recv u hu, fun hu => ?_⟩
      rw [h3.blocked u (Or.inr (by rw [hw]; exact hu)), hw]
      exact hu
  refine ⟨s, t, h1, L', ⟨h2, ⟨heap, hR.pool, hR.inv, hR.rep, hR.empty, hR.block, hR.own, hR.uart⟩,
    fun m' => ?_, fun m' u hu => ?_, fun u hu => ?_, fun u p hu => ?_, h.unused⟩,
    fun m' u l' buf' hL hb => ?_⟩
  · rw [h3.waiting]
    have hp : parcels s.data (L (.waiting m')) = parcels k.data (L (.waiting m')) :=
      parcels_congr fun u hu => congrArg TcbData.messageHeader (hheader hu)
    exact hp.symm ▸ h.copied m'
  · rw [h3.waiting] at hu
    exact (hheader hu).symm ▸ h.waiting m' u hu
  · by_cases e : u = k.current
    · subst e
      exact ⟨hact, hq⟩
    · exact h.idle u ((hrecv u e).mp hu)
  · change Function.update k.pend k.current _ u = some p at hu
    by_cases e : u = k.current
    · subst e
      rw [Function.update_self] at hu
      obtain rfl := Option.some.inj hu
      exact ⟨rfl, hact, hlen, Or.inl hcur⟩
    · rw [Function.update_of_ne e] at hu
      obtain ⟨h4, h5, h6, h7⟩ := h.pend u p hu
      exact ⟨h4, h5, h6, h7.imp_left (hrecv u e).mpr⟩
  · rw [h3.waiting] at hL
    have hb' : (s.data u).messageHeader = some buf' := hb
    rw [hheader (hL ▸ List.mem_cons_self : u ∈ L (.waiting m'))] at hb'
    exact h.full m' u l' buf' hL hb'

end Recv

end Rtx
