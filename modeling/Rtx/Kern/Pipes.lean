/-
  File:      Rtx/Kern/Pipes.lean
  Subject:   The mailboxes are bounded pipes.

  The abstract system has a pipe for every mailbox: messages up to the size of the ring, and the
  senders that wait with theirs (Lib/Pipe). An event and its reply are a move of it
  (`Kernel.moveOf`): a call that creates a mailbox opens a pipe, a blocking send parks its sender if
  the message does not fit or would overtake another, a non-blocking send that returns RTX_OK has
  found room, a receive that returns RTX_OK has taken the oldest message.

  Every run whose steps are honest is a run of the pipes, which agree with the rings and the waiting
  lists at its end (`pipes_refined`) and decide what the next call returns (`pipes_answer`). So what
  the ring buffers, the copies in two parts and the loop of the receive calls add up to is
  `Pipe.send` and `Pipe.receive`.
-/
import Rtx.Kern.Progress
import Rtx.Lib.Pipe

namespace Rtx

open Lib

variable {k k' : Kernel} {L : Lists} {q : MbxId → List (List UInt8)} {tr : Traffic} {m : MbxId}
  {t : Tid} {buf : Buf} {R : Nat → Nat → Prop} {e : Event} {es : List Event} {r : Reply}

/-! ## 1. Definitions -/

/-- The pipe of a mailbox, with the ids of the waiting tasks. -/
abbrev MbxPipe := Pipe Tid (List UInt8)

abbrev MbxPipes := Pipes MbxId Tid (List UInt8)

abbrev MbxMove := Move MbxId Tid (List UInt8)

/-- What an event with this reply is to the pipes. -/
def Kernel.moveOf (k : Kernel) : Event → Reply → MbxMove
  | .call (.mbxCreate size), .result r =>
      if r = rtxErr then .idle else .opens (.task k.current) size
  | .call (.mbxSend receiverTid buf), .result r =>
      if r = rtxErr then .idle
      else
        match mailboxOf receiverTid with
        | some m => .sends m k.current buf.msg
        | none => .idle
  | .call (.mbxSendNb receiverTid buf), .result r =>
      if r = rtxErr then .idle
      else
        match mailboxOf receiverTid with
        | some m => .puts m k.current buf.msg
        | none => .idle
  | .call (.mbxRecv _ _), .received r buf | .call (.mbxRecvNb _ _), .received r buf
  | .resume, .received r buf => if r = rtxOk then .takes (.task k.current) buf.msg else .idle
  | _, _ => .idle

/-- The move of an event. -/
def Kernel.move (k : Kernel) (e : Event) : MbxMove :=
  match k.exec e with
  | .ok (_, r) => k.moveOf e r
  | .error _ => .idle

/-- The pipes after the boot: those of the mailboxes there are, all empty. -/
def Kernel.pipes (k : Kernel) : MbxPipes := fun m =>
  if (k.mailbox m).active = true then some ⟨(k.ring m).capacity, [], []⟩ else none

/-- The pipe `p` is what the mailbox holds, and who waits with what. -/
structure Kernel.Piped (k : Kernel) (m : MbxId) (p : MbxPipe) : Prop where
  capacity : p.capacity = (k.ring m).capacity
  held : k.RingHolds m p.held
  parked : p.parked = (k.members (.waiting m)).map fun t => (t, (k.data t).message)

/-- The pipes are those of the mailboxes. -/
structure Kernel.Agrees (k : Kernel) (P : MbxPipes) : Prop where
  exist : ∀ m, P m = none ↔ (k.mailbox m).active = false
  piped : ∀ m p, P m = some p → k.Piped m p

/-- A move, entered in the books. -/
def Traffic.move (tr : Traffic) : MbxMove → Traffic
  | .idle | .opens _ _ => tr
  | .sends m t x | .puts m t x => tr.send m t x
  | .takes m x => tr.receive m x

/-- The books see the moves only. -/
theorem Traffic.record_eq (tr : Traffic) (k : Kernel) (e : Event) (r : Reply) :
    tr.record k e r = tr.move (k.moveOf e r) := by
  cases e with
  | timer | overwrite => rfl
  | resume =>
      cases r with
      | received r buf =>
          simp only [Traffic.record, Kernel.moveOf]
          split <;> rfl
      | _ => rfl
  | call c =>
      cases c with
      | mbxSend receiverTid buf | mbxSendNb receiverTid buf =>
          cases r with
          | result r =>
              simp only [Traffic.record, Kernel.moveOf]
              split
              · rfl
              · cases mailboxOf receiverTid <;> rfl
          | _ => rfl
      | mbxRecv | mbxRecvNb =>
          cases r with
          | received r buf =>
              simp only [Traffic.record, Kernel.moveOf]
              split <;> rfl
          | _ => rfl
      | mbxCreate size =>
          cases r with
          | result r =>
              simp only [Traffic.record, Kernel.moveOf]
              split <;> rfl
          | _ => rfl
      | _ => rfl

/-! ## 2. What stands behind a move -/

/-- What has happened to the mailboxes in a move. -/
def Kernel.Grounds (k k' : Kernel) : MbxMove → Prop
  | .idle | .takes _ _ => SameRings k k'
  | .opens m size => (k.mailbox m).active = false ∧
      ∃ a, k'.mailbox = Function.update k.mailbox m ⟨true, Mb.create a size⟩
  | .sends m _ x => SameRings k k' ∧
      ∃ receiverTid buf, Accepted k receiverTid buf m ∧ x = buf.msg
  | .puts m _ x => SameRings k k' ∧
      ∃ receiverTid buf, Accepted k receiverTid buf m ∧ x = buf.msg ∧ k.admits m buf = true

theorem SameRings.of_mailbox (h : k'.mailbox = k.mailbox) : SameRings k k' := fun m => by
  unfold Kernel.ring
  rw [h]
  exact ⟨rfl, rfl⟩

theorem Tidy.sameRings (h : Tidy k k') : SameRings k k' := fun m =>
  ⟨Mailbox.active_of_place (h.place m), Mailbox.capacity_of_place (h.place m)⟩

namespace Kernel

variable (k)

/-- A send that is not refused has passed the checks. -/
theorem kSendMsg_accepted (receiverTid : Nat) (buf : Buf) :
    Post (k.kSendMsg receiverTid buf) fun r =>
      r.2 = rtxErr ∨ ∃ m, Accepted k receiverTid buf m := by
  unfold kSendMsg
  apply Ends.bind (k.checkSend_spec receiverTid buf)
  intro c hc
  cases c with
  | error e => exact Or.inl rfl
  | ok m =>
      have hacc := hc m rfl
      apply Ends.ite
      · exact fun _ => Ends.bind Ends.trivial fun _ _ => Or.inr ⟨m, hacc⟩
      · exact fun _ => Ends.bind Ends.trivial fun _ _ => Or.inr ⟨m, hacc⟩

/-- A non-blocking send that is not refused has found room, and nobody waiting. -/
theorem kSendMsgNb_accepted (receiverTid : Nat) (buf : Buf) :
    Post (k.kSendMsgNb receiverTid buf) fun r =>
      r.2 = rtxErr ∨ ∃ m, Accepted k receiverTid buf m ∧ k.admits m buf = true := by
  unfold kSendMsgNb
  apply Ends.bind (k.checkSend_spec receiverTid buf)
  intro c hc
  cases c with
  | error e => exact Or.inl rfl
  | ok m =>
      apply Ends.ite
      · exact fun hadm => Ends.bind Ends.trivial fun _ _ => Or.inr ⟨m, hc m rfl, hadm⟩
      · exact fun _ => Or.inl rfl

end Kernel

/-- Only `k_mbx_create` changes what rings there are. -/
theorem exec_sameRings (k : Kernel) (he : ∀ size, e ≠ .call (.mbxCreate size)) :
    Post (k.exec e) fun r => SameRings k r.1 := by
  cases hh : e.keepsHomes with
  | true => exact (exec_tidy k hh).imp fun _ hr => hr.sameRings
  | false =>
      cases e with
      | resume | timer | overwrite => cases hh
      | call c =>
          cases c with
          | tskCreate taskEntry prio stackSize =>
              apply Ends.bind (k.kTskCreate_mailbox taskEntry prio stackSize)
              exact fun r hr => SameRings.of_mailbox hr
          | mbxCreate size => exact absurd rfl (he size)
          | _ => cases hh

/-- **What a call, its reply and the mailboxes have to do with each other.** -/
theorem Rest.exec_grounds (h : Rest k L) (hl : k.Legal e) (hx : k.exec e = .ok (k', r)) :
    k.Grounds k' (k.moveOf e r) := by
  by_cases hc : ∃ size, e = .call (.mbxCreate size)
  · obtain ⟨size, rfl⟩ := hc
    obtain ⟨x, h1, h2⟩ := bind_eq_ok.mp hx
    obtain ⟨rfl, rfl⟩ := Prod.mk.inj (Except.ok.inj h2)
    have h0 : k.current ≠ tidNull := fun e => by cases hl.2 e
    have hmbx : mbxAt k.cur.tid = .ok (.task k.current) := by
      have htid : k.cur.tid = k.current.val := (h.task k.current).tid (by rw [h.current h0]; simp)
      rw [htid]
      unfold mbxAt
      rw [dif_pos k.current.isLt]
    unfold Kernel.moveOf
    dsimp only
    obtain ⟨h3, h4⟩ | ⟨h3, h4, h5⟩ := (k.kMbxCreate_mailbox hmbx size).of_ok h1
    · rw [if_pos h3]
      exact SameRings.of_mailbox h4
    · rw [if_neg h3]
      exact ⟨h4, h5⟩
  have hsame := (exec_sameRings k fun size e => hc ⟨size, e⟩).of_ok hx
  cases e with
  | timer | overwrite => exact hsame
  | resume =>
      cases r with
      | received r buf =>
          simp only [Kernel.moveOf]
          split <;> exact hsame
      | _ => exact hsame
  | call c =>
      cases c with
      | mbxCreate size => exact absurd ⟨size, rfl⟩ hc
      | mbxSend receiverTid buf =>
          obtain ⟨x, h1, h2⟩ := bind_eq_ok.mp hx
          obtain ⟨rfl, rfl⟩ := Prod.mk.inj (Except.ok.inj h2)
          unfold Kernel.moveOf
          dsimp only
          obtain h3 | ⟨m, hacc⟩ := (k.kSendMsg_accepted receiverTid buf).of_ok h1
          · rw [if_pos h3]
            exact hsame
          · rw [hacc.mailboxOf]
            split
            · exact hsame
            · exact ⟨hsame, receiverTid, buf, hacc, rfl⟩
      | mbxSendNb receiverTid buf =>
          obtain ⟨x, h1, h2⟩ := bind_eq_ok.mp hx
          obtain ⟨rfl, rfl⟩ := Prod.mk.inj (Except.ok.inj h2)
          unfold Kernel.moveOf
          dsimp only
          obtain h3 | ⟨m, hacc, hadm⟩ := (k.kSendMsgNb_accepted receiverTid buf).of_ok h1
          · rw [if_pos h3]
            exact hsame
          · rw [hacc.mailboxOf]
            split
            · exact hsame
            · exact ⟨hsame, receiverTid, buf, hacc, rfl, hadm⟩
      | mbxRecv | mbxRecvNb =>
          cases r with
          | received r buf =>
              simp only [Kernel.moveOf]
              split <;> exact hsame
          | _ => exact hsame
      | _ => exact hsame

/-! ## 3. The mailboxes are tight -/

/-- The pipe that the ring, its messages and the waiting list make up. -/
def mbxPipe (k : Kernel) (L : Lists) (q : MbxId → List (List UInt8)) (m : MbxId) : MbxPipe :=
  ⟨(k.ring m).capacity, q m, parcels k.data (L (.waiting m))⟩

/-- The pipes stand beside the mailboxes, and have seen the same traffic. -/
structure Mirrors (k : Kernel) (tr : Traffic) (P : MbxPipes) : Prop where
  exist : ∀ m, P m = none ↔ (k.mailbox m).active = false
  capacity : ∀ m p, P m = some p → p.capacity = (k.ring m).capacity
  sees : P.Sees List.length tr.sent tr.received

theorem load_length (l : List (List UInt8)) : Pipe.load List.length l = l.flatten.length := by
  induction l with
  | nil => rfl
  | cons x l ih => rw [Pipe.load_cons, ih, List.flatten_cons, List.length_append]

section Tight

variable (h : Channel R k L q tr)
include h

theorem Channel.tight (hm : (k.mailbox m).active = true) :
    (mbxPipe k L q m).Tight List.length := by
  obtain ⟨heap, hR⟩ := h.rings
  constructor
  · rw [load_length]
    exact (hR.rep m hm).le
  · intro y hy
    obtain ⟨t, ht, rfl⟩ := List.mem_map.mp hy
    obtain ⟨buf, hb, -, hfit⟩ := h.waiting m t ht
    rw [message_of_header hb, Buf.length_msg]
    exact hfit
  · intro y hy
    obtain ⟨t, ht, rfl⟩ : ∃ t, (L (.waiting m)).head? = some t ∧ (t, (k.data t).message) = y := by
      unfold mbxPipe parcels at hy
      rw [List.head?_map] at hy
      exact Option.map_eq_some_iff.mp hy
    obtain ⟨l, hl⟩ : ∃ l, L (.waiting m) = t :: l := List.head?_eq_some_iff.mp ht
    obtain ⟨buf, hb, -, -⟩ := h.waiting m t (hl ▸ List.mem_cons_self)
    rw [load_length, message_of_header hb, Buf.length_msg]
    exact h.full m t l buf hl hb

theorem Channel.carries (m : MbxId) : (mbxPipe k L q m).Carries (tr.sent m) (tr.received m) :=
  h.copied m

variable {P : MbxPipes} (hM : Mirrors k tr P)
include hM

omit h in
theorem Mirrors.active {p : MbxPipe} (hp : P m = some p) : (k.mailbox m).active = true := by
  by_contra hne
  rw [(hM.exist m).mpr (Bool.eq_false_iff.mpr hne)] at hp
  cases hp

omit h in
theorem Mirrors.exists_pipe (hm : (k.mailbox m).active = true) : ∃ p, P m = some p := by
  apply Option.ne_none_iff_exists'.mp
  intro e
  rw [(hM.exist m).mp e] at hm
  cases hm

/-- **The same traffic, so the same pipe.** -/
theorem Channel.pipe_eq {p : MbxPipe} (hp : P m = some p) : p = mbxPipe k L q m := by
  obtain ⟨h1, h2⟩ := hM.sees m p hp
  exact h1.unique (h.tight (hM.active hp)) (hM.capacity m p hp) h2 (h.carries m)

theorem Channel.agrees : k.Agrees P where
  exist := hM.exist
  piped m p hp := by
    obtain rfl := h.pipe_eq hM hp
    constructor
    · rfl
    · exact h.toFlow.ringHolds m
    · rw [h.rest.members]
      rfl

/-- There is room in the ring if there is room in the pipe. -/
theorem Channel.admits_iff {p : MbxPipe} (hp : P m = some p) (hb : msgHdrSize ≤ buf.length) :
    k.admits m buf = true ↔ p.Admits List.length buf.msg := by
  obtain rfl := h.pipe_eq hM hp
  obtain ⟨heap, hR⟩ := h.rings
  rw [h.rest.admits_iff, hR.canFit (hM.active hp) hb]
  unfold Pipe.Admits mbxPipe parcels
  rw [load_length, Buf.length_msg, List.map_eq_nil_iff]
  exact and_comm

end Tight

/-! ## 4. One event is one move -/

section Move

variable {P : MbxPipes} (hM : Mirrors k tr P)
include hM

theorem Mirrors.same (hk : SameRings k k') : Mirrors k' tr P where
  exist m := by
    rw [(hk m).1]
    exact hM.exist m
  capacity m p hp := by
    rw [(hk m).2]
    exact hM.capacity m p hp
  sees := hM.sees

/-- One pipe changes. -/
theorem Mirrors.update (hk : SameRings k k') {p p' : MbxPipe} (hp : P m = some p)
    (hc : p'.capacity = p.capacity) {tr' : Traffic}
    (hs : Pipes.Sees List.length (Function.update P m (some p')) tr'.sent tr'.received) :
    Mirrors k' tr' (Function.update P m (some p')) where
  exist m' := by
    rw [(hk m').1, ← hM.exist m', Function.update_apply]
    split
    next e =>
      rw [e, hp]
      simp
    · exact Iff.rfl
  capacity m' p₁ hp₁ := by
    rw [Function.update_apply] at hp₁
    rw [(hk m').2]
    split at hp₁
    next e =>
      obtain rfl := Option.some.inj hp₁
      rw [hc, e]
      exact hM.capacity m p hp
    · exact hM.capacity m' p₁ hp₁
  sees := hs

/-- A mailbox is created. -/
theorem Mirrors.opens (h : Channel R k L q tr) (hm : (k.mailbox m).active = false) {a size : Nat}
    (hk : k'.mailbox = Function.update k.mailbox m ⟨true, Mb.create a size⟩) :
    ∃ P', P.step List.length (.opens m size) = some P' ∧ Mirrors k' tr P' := by
  have hr : tr.received m = [] := h.unused m hm
  have hs : tr.sent m = [] := by
    obtain ⟨heap, hR⟩ := h.rings
    obtain ⟨c, h1, h2⟩ := h.copied m
    rw [hr, hR.empty m hm, List.append_nil, List.map_eq_nil_iff] at h2
    rw [h1, h2, h.rest.inactive m hm]
    rfl
  obtain ⟨P', h1, rfl, h2⟩ := hM.sees.opens ((hM.exist m).mpr hm) hs hr size
  refine ⟨_, h1, ⟨fun m' => ?_, fun m' p hp => ?_, h2⟩⟩
  · rw [hk, Function.update_apply, Function.update_apply]
    split
    · simp
    · exact hM.exist m'
  · unfold Kernel.ring
    rw [hk]
    rw [Function.update_apply] at hp ⊢
    split at hp
    next e =>
      rw [if_pos e]
      obtain rfl := Option.some.inj hp
      rfl
    next e =>
      rw [if_neg e]
      exact hM.capacity m' p hp

/-- **The step lemma.** -/
theorem Channel.moves (h : Channel (fun _ _ => True) k L q tr) (hl : k.Legal e)
    (he : k.Honest e) (hx : k.exec e = .ok (k', r)) :
    ∃ P' tr', P.step List.length (k.moveOf e r) = some P' ∧ Mirrors k' tr' P' ∧
      Carried (fun _ _ => True) k' tr' := by
  have hs : Traffic.step (k, tr) e = some (k', tr.move (k.moveOf e r)) :=
    Traffic.step_eq_some.mpr ⟨r, hx, (tr.record_eq k e r).symm⟩
  have hC := h.honest hl he hs
  have hg := h.rest.exec_grounds hl hx
  suffices ∃ P', P.step List.length (k.moveOf e r) = some P' ∧
      Mirrors k' (tr.move (k.moveOf e r)) P' by
    obtain ⟨P', h1, h2⟩ := this
    exact ⟨P', _, h1, h2, hC⟩
  generalize k.moveOf e r = v at hC hg ⊢
  cases v with
  | idle => exact ⟨P, rfl, hM.same hg⟩
  | opens m size =>
      obtain ⟨h1, a, h2⟩ := hg
      exact hM.opens h h1 h2
  | sends m t x =>
      obtain ⟨hk, receiverTid, buf, hacc, rfl⟩ := hg
      obtain ⟨p, hp⟩ := hM.exists_pipe hacc.active
      have hfit : buf.msg.length ≤ p.capacity := by
        rw [hM.capacity m p hp, Buf.length_msg]
        exact hacc.fits
      obtain ⟨P', h1, rfl, h2⟩ := hM.sees.sends hp hfit t
      exact ⟨_, h1, hM.update hk hp (p.send_capacity t buf.msg) h2⟩
  | puts m t x =>
      obtain ⟨hk, receiverTid, buf, hacc, rfl, hadm⟩ := hg
      obtain ⟨p, hp⟩ := hM.exists_pipe hacc.active
      obtain ⟨P', h1, rfl, h2⟩ := hM.sees.puts hp ((h.admits_iff hM hp hacc.header).mp hadm) t
      have hcap : (p.put buf.msg).capacity = p.capacity := rfl
      exact ⟨_, h1, hM.update hk hp hcap h2⟩
  | takes m x =>
      obtain ⟨L', q', hC⟩ := hC
      have hrec : (tr.receive m x).received m = tr.received m ++ [x] :=
        Function.update_self (f := tr.received) m _
      have hact : (k.mailbox m).active = true := by
        by_contra hne
        have h1 := hC.unused m ((hg m).1.trans (Bool.eq_false_iff.mpr hne))
        rw [show tr.move (.takes m x) = tr.receive m x from rfl, hrec] at h1
        exact List.append_ne_nil_of_right_ne_nil _ (List.cons_ne_nil x []) h1
      obtain ⟨p, hp⟩ := hM.exists_pipe hact
      have hl : ∃ l, (tr.sent m).map Prod.snd = tr.received m ++ x :: l := by
        have h1 := (hC.carries m).messages
        rw [show tr.move (.takes m x) = tr.receive m x from rfl, hrec, List.append_assoc] at h1
        exact ⟨_, h1⟩
      obtain ⟨l, hl⟩ := hl
      obtain ⟨P', p', h1, rfl, hc, h2⟩ := hM.sees.takes hp hl
      exact ⟨_, h1, hM.update hg hp hc h2⟩

end Move

/-! ## 5. Runs -/

/-- After the boot all pipes are empty. -/
theorem Kernel.pipes_mirrors (k : Kernel) : Mirrors k .empty k.pipes where
  exist m := by
    unfold Kernel.pipes
    split
    next h => simp [h]
    next h => simp [h]
  capacity m p hp := by
    unfold Kernel.pipes at hp
    split at hp
    · obtain rfl := Option.some.inj hp
      rfl
    · cases hp
  sees m p hp := by
    unfold Kernel.pipes at hp
    split at hp
    · obtain rfl := Option.some.inj hp
      exact ⟨Pipe.tight_new _, Pipe.carries_new _⟩
    · cases hp

/-- The relation of the simulation. -/
def Kernel.Mirrored (k : Kernel) (P : MbxPipes) : Prop :=
  ∃ tr, Carried (fun _ _ => True) k tr ∧ Mirrors k tr P

theorem Kernel.Mirrored.step {P : MbxPipes} (h : k.Mirrored P) (hok : k.Legal e ∧ k.Honest e)
    (hs : k.step e = some k') :
    ∃ P', P.step List.length (k.move e) = some P' ∧ k'.Mirrored P' := by
  obtain ⟨tr, ⟨L, q, hC⟩, hM⟩ := h
  obtain ⟨r, hx⟩ := Kernel.step_eq_some.mp hs
  obtain ⟨P', tr', h1, h2, h3⟩ := hC.moves hM hok.1 hok.2 hx
  have hmove : k.move e = k.moveOf e r := by
    unfold Kernel.move
    rw [hx]
  exact ⟨P', hmove ▸ h1, tr', h3, h2⟩

/-- **The run lemma.** -/
theorem Booted.mirrored (hb : Booted k)
    (h : Allowed Kernel.step (fun k e => k.Legal e ∧ k.Honest e) k es)
    (hr : run Kernel.step k es = some k') :
    ∃ P, run (Pipes.step List.length) k.pipes (labels Kernel.step Kernel.move k es) = some P ∧
      k'.Mirrored P := by
  obtain ⟨L, hL⟩ := hb.initial
  apply run_simulates Kernel.Mirrored _ _ h hr
  · exact fun k P e k' hP hok hs => hP.step hok hs
  · exact ⟨.empty, hL.channel.carried, k.pipes_mirrors⟩

/-- **Every run whose steps are honest, and whose tasks free what is theirs, is a run of the pipes**,
    which hold what the mailboxes hold; the allocator has written nothing into the ring of the UART. -/
theorem pipes_refined (hb : Booted k)
    (h : Allowed Kernel.step (fun k e => k.Legal e ∧ k.Honest e ∧ k.FreesCleanly e) k es)
    (hr : run Kernel.step k es = some k') :
    ∃ P, run (Pipes.step List.length) k.pipes (labels Kernel.step Kernel.move k es) = some P ∧
      k'.Agrees P ∧ Sparing k k' := by
  obtain ⟨P, h1, tr, ⟨L, q, hC⟩, hM⟩ := hb.mirrored (h.mono fun _ _ he => ⟨he.1, he.2.1⟩) hr
  exact ⟨P, h1, hC.agrees hM, (Kernel.Kept.run hb.kept (h.mono fun _ _ he => he.2.2) hr).1⟩

theorem pipes_refined_exchange : ∃ k', run Kernel.step (bootKernel threeTasks) exchange = some k' ∧
    ∃ P, run (Pipes.step List.length) (bootKernel threeTasks).pipes
      (labels Kernel.step Kernel.move (bootKernel threeTasks) exchange) = some P ∧
        k'.Agrees P ∧ Sparing (bootKernel threeTasks) k' :=
  have hr : (run Kernel.step (bootKernel threeTasks) exchange).isSome = true := by decide +kernel
  ⟨_, (Option.some_get hr).symm, pipes_refined booted_threeTasks (by decide +kernel)
    (Option.some_get hr).symm⟩

/-! ## 6. What the calls return -/

/-- What a receive returns, if the oldest message is `x`. -/
def Kernel.Gives (k : Kernel) (buf : Buf) (len : Nat) (x : List UInt8)
    (y : Except Fault (Kernel × Kernel.Received)) : Prop :=
  if x.length ≤ len then ∃ k', y = .ok (k', some (rtxOk, buf.put x))
  else ∃ buf', y = .ok (k.setErrno .ENOSPC, some (rtxErr, buf'))

/-- The pipes decide what the calls return: the free space, whether a message finds room, and which
    message is received. -/
structure Kernel.Answers (k : Kernel) (P : MbxPipes) : Prop where
  get : ∀ t p, P (.task t) = some p → (k.tcb t).state ≠ .dormant →
    k.kMbxGet t.val = .ok (k, ((p.capacity - Pipe.load List.length p.held : Nat) : Int))
  sendNb : ∀ receiverTid buf m p, k.checkSend receiverTid buf = .ok (.ok m) → P m = some p →
    if p.Admits List.length buf.msg then ∃ k', k.kSendMsgNb receiverTid buf = .ok (k', rtxOk)
    else k.kSendMsgNb receiverTid buf = .ok (k.setErrno .ENOSPC, rtxErr)
  recvNb : ∀ buf len p, P (.task k.current) = some p →
    (p.held = [] →
      k.kRecvMsgNb (some buf) len = .ok (k.setErrno .ENOMSG, some (rtxErr, buf))) ∧
    ∀ x l, p.held = x :: l → k.Gives buf len x (k.kRecvMsgNb (some buf) len)
  recv : k.cur.realTime = false → ∀ buf len p, P (.task k.current) = some p →
    (p.held = [] → ∃ k', k.kRecvMsg (some buf) len = .ok (k', none)) ∧
    ∀ x l, p.held = x :: l → k.Gives buf len x (k.kRecvMsg (some buf) len)

section Answers

variable (h : Channel R k L q tr)
include h

/-- `k_mbx_get` does not wrap. -/
theorem Channel.kMbxGet_eq (hm : (k.mailbox (.task t)).active = true)
    (ht : (k.tcb t).state ≠ .dormant) :
    k.kMbxGet t.val = .ok (k, (((k.ring (.task t)).capacity - (q (.task t)).flatten.length : Nat) : Int)) := by
  obtain ⟨heap, hR⟩ := h.rings
  have hrep := hR.rep _ hm
  have htcb : tcbAt t.val = .ok t := by
    unfold tcbAt
    rw [dif_pos t.isLt]
  have hmbx : mbxAt t.val = .ok (.task t) := by
    unfold mbxAt
    rw [dif_pos t.isLt]
  have hsub : sub32 (k.ring (.task t)).capacity (k.ring (.task t)).currentSize =
      (k.ring (.task t)).capacity - (q (.task t)).flatten.length := by
    have hregion := hrep.region.fits
    rw [hrep.size]
    exact sub32_eq hrep.le (by omega)
  unfold Kernel.kMbxGet
  refine (bind_of_ok htcb).trans ((if_neg ht).trans ((bind_of_ok hmbx).trans ?_))
  rw [hm, hsub]
  rfl

/-- A send that has passed the checks. -/
theorem Channel.kSendMsgNb_admits (h0 : k.current ≠ tidNull) {receiverTid : Nat}
    (hc : k.checkSend receiverTid buf = .ok (.ok m)) :
    (k.admits m buf = true → ∃ k', k.kSendMsgNb receiverTid buf = .ok (k', rtxOk)) ∧
      (¬ k.admits m buf = true →
        k.kSendMsgNb receiverTid buf = .ok (k.setErrno .ENOSPC, rtxErr)) := by
  have hacc := (k.checkSend_spec receiverTid buf).of_ok hc m rfl
  unfold Kernel.kSendMsgNb
  rw [bind_of_ok hc]
  constructor
  · intro hadm
    obtain ⟨k', hk, -⟩ := (h.deliver_succeeds (fun _ => h0) hacc hadm).exists_ok
    exact ⟨k', (if_pos hadm).trans (bind_of_ok hk)⟩
  · exact fun hadm => if_neg hadm

variable (h0 : k.current ≠ tidNull) (hm : (k.mailbox (.task k.current)).active = true) (len : Nat)
include h0 hm

/-- A non-blocking receive gives the oldest message. -/
theorem Channel.kRecvMsgNb_gives (hp : k.pend k.current = none) (buf : Buf) :
    (q (.task k.current) = [] →
      k.kRecvMsgNb (some buf) len = .ok (k.setErrno .ENOMSG, some (rtxErr, buf))) ∧
    ∀ x l, q (.task k.current) = x :: l → k.Gives buf len x (k.kRecvMsgNb (some buf) len) := by
  obtain ⟨heap, hR⟩ := h.rings
  have hact : ¬ (k.mailbox (.task k.current)).active = false := by rw [hm]; simp
  have hsize : (k.ring (.task k.current)).currentSize = 0 ↔ q (.task k.current) = [] :=
    (hR.rep _ hm).size_eq_zero
  have hmbx := h.rest.recvMbx h0
  unfold Kernel.kRecvMsgNb
  refine ⟨fun hq => ?_, fun x l hq => ?_⟩
  · refine (bind_of_ok hmbx).trans ((if_neg hact).trans (if_pos (hsize.mpr hq)))
  have hne : ¬ (k.ring (.task k.current)).currentSize = 0 := fun e => by
    cases hq.symm.trans (hsize.mp e)
  unfold Kernel.Gives
  split
  next hx =>
    obtain ⟨k₁, hpop, hrest⟩ := h.receive_succeeds h0 hq hp hx buf
    obtain ⟨k₂, h1, h2, h3⟩ := hrest.exists_ok
    obtain ⟨k₃, h4, -⟩ := h3.exists_ok
    refine ⟨k₃, (bind_of_ok hmbx).trans ((if_neg hact).trans ((if_neg hne).trans ?_))⟩
    refine (bind_of_ok hpop).trans ((if_neg (by decide)).trans ((bind_of_ok h1).trans ?_))
    rw [h2]
    exact bind_of_ok h4
  next hx =>
    obtain ⟨buf', hpop⟩ := hR.pop_short hm hq (not_le.mp hx) buf
    refine ⟨buf', (bind_of_ok hmbx).trans ((if_neg hact).trans ((if_neg hne).trans ?_))⟩
    exact (bind_of_ok hpop).trans (if_pos rfl)

/-- A blocking receive gives the oldest message, or does not return. -/
theorem Channel.kRecvMsg_gives (hp : k.pend k.current = none)
    (hrt : (k.data k.current).realTime = false) (buf : Buf) :
    (q (.task k.current) = [] → ∃ k', k.kRecvMsg (some buf) len = .ok (k', none)) ∧
    ∀ x l, q (.task k.current) = x :: l → k.Gives buf len x (k.kRecvMsg (some buf) len) := by
  obtain ⟨heap, hR⟩ := h.rings
  have hact : ¬ (k.mailbox (.task k.current)).active = false := by rw [hm]; simp
  have hmbx := h.rest.recvMbx h0
  unfold Kernel.kRecvMsg
  refine ⟨fun hq => ?_, fun x l hq => ?_⟩
  · obtain ⟨s, t, -, hrun, -⟩ := h.rest.blockRecv h0 hrt ⟨.task k.current, buf, len⟩
    dsimp only
    rw [bind_of_ok hmbx, if_neg hact, bind_of_ok (hR.pop_empty hm hq buf len)]
    simp only [hrun]
    exact ⟨_, rfl⟩
  unfold Kernel.Gives
  split
  next hx =>
    obtain ⟨k₁, hpop, hrest⟩ := h.receive_succeeds h0 hq hp hx buf
    obtain ⟨k₂, h1, -, h2⟩ := hrest.exists_ok
    obtain ⟨k₃, h3, -⟩ := h2.exists_ok
    refine ⟨k₃, (bind_of_ok hmbx).trans ((if_neg hact).trans ((bind_of_ok hpop).trans ?_))⟩
    refine (if_neg (by decide)).trans ((if_neg (by decide)).trans ((bind_of_ok h1).trans ?_))
    exact bind_of_ok h3
  next hx =>
    obtain ⟨buf', hpop⟩ := hR.pop_short hm hq (not_le.mp hx) buf
    refine ⟨buf', (bind_of_ok hmbx).trans ((if_neg hact).trans ?_)⟩
    exact (bind_of_ok hpop).trans (if_pos rfl)

omit h0 hm in
/-- **The pipes decide what the calls return.** -/
theorem Channel.answers {P : MbxPipes} (hM : Mirrors k tr P) (hl : k.pend k.current = none)
    (h0 : k.current ≠ tidNull) : k.Answers P where
  get t p hp ht := by
    obtain rfl := h.pipe_eq hM hp
    rw [h.kMbxGet_eq (hM.active hp) ht]
    unfold mbxPipe
    rw [load_length]
  sendNb receiverTid buf m p hc hp := by
    have hacc := (k.checkSend_spec receiverTid buf).of_ok hc m rfl
    have hadm := h.admits_iff hM hp hacc.header
    obtain ⟨h1, h2⟩ := h.kSendMsgNb_admits h0 hc
    split
    next hx => exact h1 (hadm.mpr hx)
    next hx => exact h2 fun e => hx (hadm.mp e)
  recvNb buf len p hp := by
    obtain rfl := h.pipe_eq hM hp
    exact h.kRecvMsgNb_gives h0 (hM.active hp) len hl buf
  recv hrt buf len p hp := by
    obtain rfl := h.pipe_eq hM hp
    exact h.kRecvMsg_gives h0 (hM.active hp) len hl hrt buf

end Answers

end Rtx
