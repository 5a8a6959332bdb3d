/-
  File:      Rtx/Msg/RingSpec.lean
  Subject:   The circular message buffer refines a queue of byte strings.

  `Chan` is the abstract side: a list of messages and a capacity. `Mb.Rep mb bytes q` says that the
  ring `mb` holds the messages `q`: their bytes one after the other from `head` on, going round at
  the end. `push_buffer` and `pop_buffer` each keep the representation and return what the abstract
  operation returns (`Rep.push`, `Rep.pop`), so whole sequences of calls do (`run_refines`).
-/
import Mathlib.Data.List.GetD
import Rtx.Lib.Circular
import Rtx.Msg.Ring

namespace Rtx

open Lib

/-! ## 1. Messages -/

/-- The memory that holds the bytes of a message, zero behind it. -/
def Buf.ofMsg (m : List UInt8) : Buf := fun i => m.getD i 0

/-- The buffer `b` overwritten with the bytes of `m`. -/
def Buf.put (b : Buf) (m : List UInt8) : Buf := fun i => if h : i < m.length then m[i] else b i

/-- A message whose header says its size, the header included. -/
structure IsMsg (m : List UInt8) : Prop where
  length_eq : (Buf.ofMsg m).length = m.length
  header : msgHdrSize ≤ m.length

namespace Buf

theorem length_congr {b b' : Buf} (h : ∀ i, i < 4 → b' i = b i) : b'.length = b.length := by
  rw [length, length, h 0 (by omega), h 1 (by omega), h 2 (by omega), h 3 (by omega)]

theorem length_lt (b : Buf) : b.length < 2 ^ 32 := by
  have h0 := (b 0).toNat_lt
  have h1 := (b 1).toNat_lt
  have h2 := (b 2).toNat_lt
  have h3 := (b 3).toNat_lt
  rw [length]
  omega

@[simp] theorem length_msg (b : Buf) : b.msg.length = b.length := by simp [msg]

theorem getElem_msg (b : Buf) (i : Nat) (h : i < b.msg.length) : b.msg[i] = b i := by
  simp [msg]

/-- What a sender's buffer holds is a message. -/
theorem isMsg_msg {b : Buf} (h : msgHdrSize ≤ b.length) : IsMsg b.msg := by
  have h6 : msgHdrSize = 6 := rfl
  refine ⟨?_, by rw [length_msg]; exact h⟩
  rw [length_msg]
  refine length_congr fun i hi => ?_
  have hi' : i < b.msg.length := by rw [length_msg]; omega
  rw [ofMsg, List.getD_eq_getElem _ _ hi', getElem_msg]

theorem put_of_lt {b : Buf} {m : List UInt8} {i : Nat} (h : i < m.length) : b.put m i = m[i] := by
  rw [put, dif_pos h]

theorem put_of_ge {b : Buf} {m : List UInt8} {i : Nat} (h : m.length ≤ i) : b.put m i = b i := by
  rw [put, dif_neg (by omega)]

/-- A buffer that starts with the header of a message has its length. -/
theorem length_of_header {b : Buf} {m : List UInt8} (hm : IsMsg m)
    (h : ∀ i (_ : i < msgHdrSize) (hi : i < m.length), b i = m[i]) : b.length = m.length := by
  have h6 : msgHdrSize = 6 := rfl
  have h6' := hm.header
  rw [← hm.length_eq]
  refine length_congr fun i hi => ?_
  rw [ofMsg, List.getD_eq_getElem _ _ (by omega)]
  exact h i (by omega) _

theorem length_put {b : Buf} {m : List UInt8} (hm : IsMsg m) : (b.put m).length = m.length :=
  length_of_header hm fun _ _ hi => put_of_lt hi

/-- What a receiver's buffer holds after a message was put there. -/
theorem msg_put {b : Buf} {m : List UInt8} (hm : IsMsg m) : (b.put m).msg = m := by
  refine List.ext_getElem (by rw [length_msg, length_put hm]) fun i h1 h2 => ?_
  rw [getElem_msg, put_of_lt h2]

end Buf

/-- The headers tell where one message ends and the next begins. -/
theorem IsMsg.flatten_inj {q q' : List (List UInt8)} (hq : ∀ m ∈ q, IsMsg m)
    (hq' : ∀ m ∈ q', IsMsg m) (h : q.flatten = q'.flatten) : q = q' := by
  have h6 : msgHdrSize = 6 := rfl
  have hne : ∀ {m : List UInt8} {l : List (List UInt8)}, IsMsg m → [] ≠ (m :: l).flatten := by
    intro m l hm e
    have := hm.header
    rw [List.flatten_cons] at e
    rw [List.append_eq_nil_iff.mp e.symm |>.1, List.length_nil] at this
    omega
  -- the length of the first message is in the first bytes
  have hlen : ∀ {m : List UInt8} {l : List (List UInt8)}, IsMsg m →
      (Buf.ofMsg (m :: l).flatten).length = m.length := by
    intro m l hm
    refine Buf.length_of_header hm fun i _ hi => ?_
    rw [Buf.ofMsg, List.flatten_cons, List.getD_eq_getElem _ _ (by rw [List.length_append]; omega),
      List.getElem_append_left hi]
  induction q generalizing q' with
  | nil =>
      cases q' with
      | nil => rfl
      | cons m' q' => exact absurd h (hne (hq' m' List.mem_cons_self))
  | cons m q ih =>
      cases q' with
      | nil => exact absurd h.symm (hne (hq m List.mem_cons_self))
      | cons m' q' =>
          have hl := hlen (l := q) (hq m List.mem_cons_self)
          rw [h, hlen (hq' m' List.mem_cons_self)] at hl
          rw [List.flatten_cons, List.flatten_cons] at h
          obtain ⟨rfl, htail⟩ := List.append_inj h hl.symm
          rw [ih (fun x hx => hq x (List.mem_cons_of_mem _ hx))
            (fun x hx => hq' x (List.mem_cons_of_mem _ hx)) htail]

/-! ## 2. Copies -/

theorem memCpy_apply (dest : Nat → UInt8) (d : Nat) (src : Nat → UInt8) (s n a : Nat) :
    memCpy dest d src s n a = if d ≤ a ∧ a < d + n then src (s + (a - d)) else dest a := by
  induction n with
  | zero =>
      rw [if_neg (by omega)]
      rfl
  | succ n ih =>
      unfold memCpy
      rw [Function.update_apply]
      by_cases h : a = d + n
      · rw [if_pos h, if_pos (by omega), h, Nat.add_sub_cancel_left]
      · rw [if_neg h, ih]
        by_cases h' : d ≤ a ∧ a < d + n
        · rw [if_pos h', if_pos (by omega)]
        · rw [if_neg h', if_neg (by omega)]

namespace Mb

variable {mb : Mb} {bytes : Nat → UInt8} {buf : Buf} {q : List (List UInt8)}

/-- The region of a ring, with room behind it for the sums the code forms. -/
structure Region (mb : Mb) : Prop where
  pos : 0 < mb.capacity
  stop_eq : mb.memoryEnd = mb.memoryStart + mb.capacity
  fits : mb.memoryEnd + mb.capacity < 2 ^ 32

/-- An address of the ring: from its start to the one behind its end. -/
def Inside (mb : Mb) (a : Nat) : Prop := mb.memoryStart ≤ a ∧ a ≤ mb.memoryEnd

theorem inRing_of {a n : Nat} (h1 : mb.memoryStart ≤ a) (h2 : a + n ≤ mb.memoryEnd) :
    mb.inRing a n = true := by
  simp [inRing, h1, h2]

/-- The cell of a position before the end of the region. -/
theorem Region.cell_before (hr : mb.Region) {a i : Nat} (ha : mb.Inside a)
    (h : a + i < mb.memoryEnd) :
    cell mb.memoryStart mb.capacity (a - mb.memoryStart + i) = a + i := by
  obtain ⟨_, he, _⟩ := hr
  obtain ⟨ha1, _⟩ := ha
  rw [cell_of_lt (by omega)]
  omega

/-- The cell of a position that has gone round the end. -/
theorem Region.cell_behind (hr : mb.Region) {a i : Nat} (ha : mb.Inside a)
    (h : mb.memoryEnd ≤ a + i) (hi : i < mb.capacity) :
    cell mb.memoryStart mb.capacity (a - mb.memoryStart + i) =
      mb.memoryStart + (i - (mb.memoryEnd - a)) := by
  obtain ⟨_, he, _⟩ := hr
  obtain ⟨ha1, ha2⟩ := ha
  rw [cell_of_ge (by omega) (by omega)]
  omega

theorem Region.add32 (hr : mb.Region) {a n : Nat} (ha : mb.Inside a) (hn : n ≤ mb.capacity) :
    add32 a n = a + n := add32_eq (by have := hr.fits; have := ha.2; omega)

/-- The lengths of the two parts of a copy that goes round the end. -/
theorem Region.parts (hr : mb.Region) {a n : Nat} (ha : mb.Inside a) (hn : n ≤ mb.capacity)
    (hw : mb.memoryEnd < a + n) :
    sub32 mb.memoryEnd a = mb.memoryEnd - a ∧
      sub32 n (mb.memoryEnd - a) = n - (mb.memoryEnd - a) := by
  have := hr.fits
  have := ha.2
  exact ⟨sub32_eq ha.2 (by omega), sub32_eq (by omega) (by omega)⟩

/-- The address behind a copy that goes round the end. -/
theorem Region.behind (hr : mb.Region) {a n : Nat} (ha : mb.Inside a) (hn : n ≤ mb.capacity)
    (hw : mb.memoryEnd < a + n) :
    mb.Inside (mb.memoryStart + (n - (mb.memoryEnd - a))) ∧
      (mb.memoryStart + (n - (mb.memoryEnd - a)) - mb.memoryStart) % mb.capacity =
        (a - mb.memoryStart + n) % mb.capacity := by
  obtain ⟨_, he, _⟩ := hr
  obtain ⟨ha1, ha2⟩ := ha
  refine ⟨⟨by omega, by omega⟩, ?_⟩
  rw [show a - mb.memoryStart + n =
    mb.memoryStart + (n - (mb.memoryEnd - a)) - mb.memoryStart + mb.capacity by omega,
    Nat.add_mod_right]

/-- A message copied in fills the positions from its start on, and nothing else. -/
theorem copyIn_spec (bytes : Nat → UInt8) (buf : Buf) (hr : mb.Region) {a n : Nat}
    (ha : mb.Inside a) (hn : n ≤ mb.capacity) :
    ∃ bytes' a', mb.copyIn bytes a buf n = .ok (bytes', a') ∧ mb.Inside a' ∧
      (a' - mb.memoryStart) % mb.capacity = (a - mb.memoryStart + n) % mb.capacity ∧
      (∀ i, i < n →
        bytes' (cell mb.memoryStart mb.capacity (a - mb.memoryStart + i)) = buf i) ∧
      ∀ z, (∀ i, i < n → z ≠ cell mb.memoryStart mb.capacity (a - mb.memoryStart + i)) →
        bytes' z = bytes z := by
  have he := hr.stop_eq
  obtain ⟨ha1, ha2⟩ := id ha
  unfold copyIn
  rw [hr.add32 ha hn]
  rcases Nat.lt_or_ge mb.memoryEnd (a + n) with hw | hw
  · obtain ⟨h1, h2⟩ := hr.parts ha hn hw
    obtain ⟨h3, h4⟩ := hr.behind ha hn hw
    rw [if_neg (by omega)]
    simp only [h1, h2]
    rw [inRing_of ha1 (by omega), inRing_of (Nat.le_refl _) (by omega),
      add32_eq (by have := hr.fits; omega)]
    refine ⟨_, _, rfl, h3, h4, fun i hi => ?_, fun z hz => ?_⟩
    · rcases Nat.lt_or_ge (a + i) mb.memoryEnd with hlt | hge
      · rw [hr.cell_before ha hlt, memCpy_apply, if_neg (by omega), memCpy_apply,
          if_pos (by omega)]
        congr 1
        omega
      · rw [hr.cell_behind ha hge (by omega), memCpy_apply, if_pos (by omega)]
        congr 1
        omega
    · rw [memCpy_apply, if_neg, memCpy_apply, if_neg]
      · intro hin
        refine hz (z - a) (by omega) ?_
        rw [hr.cell_before ha (by omega)]
        omega
      · intro hin
        refine hz (z - mb.memoryStart + (mb.memoryEnd - a)) (by omega) ?_
        rw [hr.cell_behind ha (by omega) (by omega)]
        omega
  · rw [if_pos hw, if_pos (inRing_of ha1 hw)]
    refine ⟨_, _, rfl, ⟨by omega, hw⟩, by congr 1; omega, fun i hi => ?_, fun z hz => ?_⟩
    · rw [hr.cell_before ha (by omega), memCpy_apply, if_pos (by omega)]
      congr 1
      omega
    · rw [memCpy_apply, if_neg]
      intro hin
      refine hz (z - a) (by omega) ?_
      rw [hr.cell_before ha (by omega)]
      omega

/-- Bytes copied out are those of the positions from the start on. -/
theorem copyOut_spec (bytes : Nat → UInt8) (buf : Buf) (d : Nat) (hr : mb.Region) {a n : Nat}
    (ha : mb.Inside a) (hn : n ≤ mb.capacity) :
    ∃ buf' a', mb.copyOut bytes a buf d n = .ok (buf', a') ∧ mb.Inside a' ∧
      (a' - mb.memoryStart) % mb.capacity = (a - mb.memoryStart + n) % mb.capacity ∧
      (∀ i, i < n →
        buf' (d + i) = bytes (cell mb.memoryStart mb.capacity (a - mb.memoryStart + i))) ∧
      ∀ z, z < d ∨ d + n ≤ z → buf' z = buf z := by
  have he := hr.stop_eq
  obtain ⟨ha1, ha2⟩ := id ha
  unfold copyOut
  rw [hr.add32 ha hn]
  rcases Nat.lt_or_ge mb.memoryEnd (a + n) with hw | hw
  · obtain ⟨h1, h2⟩ := hr.parts ha hn hw
    obtain ⟨h3, h4⟩ := hr.behind ha hn hw
    rw [if_neg (by omega)]
    simp only [h1, h2]
    rw [inRing_of ha1 (by omega), inRing_of (Nat.le_refl _) (by omega),
      add32_eq (by have := hr.fits; omega)]
    refine ⟨_, _, rfl, h3, h4, fun i hi => ?_, fun z hz => ?_⟩
    · rcases Nat.lt_or_ge (a + i) mb.memoryEnd with hlt | hge
      · rw [hr.cell_before ha hlt, memCpy_apply, if_neg (by omega), memCpy_apply,
          if_pos (by omega)]
        congr 1
        omega
      · rw [hr.cell_behind ha hge (by omega), memCpy_apply, if_pos (by omega)]
        congr 1
        omega
    · rw [memCpy_apply, if_neg (by omega), memCpy_apply, if_neg (by omega)]
  · rw [if_pos hw, if_pos (inRing_of ha1 hw)]
    refine ⟨_, _, rfl, ⟨by omega, hw⟩, by congr 1; omega, fun i hi => ?_, fun z hz => ?_⟩
    · rw [hr.cell_before ha (by omega), memCpy_apply, if_pos (by omega)]
      congr 1
      omega
    · rw [memCpy_apply, if_neg (by omega)]

/-! ## 3. The representation -/

/-- The ring `mb` in the memory `bytes` holds the messages `q`. -/
structure Rep (mb : Mb) (bytes : Nat → UInt8) (q : List (List UInt8)) : Prop where
  region : mb.Region
  head : mb.Inside mb.head
  tail : mb.Inside mb.tail
  size : mb.currentSize = q.flatten.length
  le : q.flatten.length ≤ mb.capacity
  tail_eq : (mb.tail - mb.memoryStart) % mb.capacity =
    (mb.head - mb.memoryStart + q.flatten.length) % mb.capacity
  held : Holds bytes mb.memoryStart mb.capacity (mb.head - mb.memoryStart) q.flatten
  msgs : ∀ m ∈ q, IsMsg m

/-- A ring holds only one list of messages. -/
theorem Rep.unique {q' : List (List UInt8)} (h : mb.Rep bytes q) (h' : mb.Rep bytes q') :
    q = q' := by
  refine IsMsg.flatten_inj h.msgs h'.msgs ?_
  refine List.ext_getElem (h.size.symm.trans h'.size) fun i h1 h2 => ?_
  rw [← h.held i h1, ← h'.held i h2]

/-- The ring `k_mbx_create` sets up is empty. -/
theorem Rep.create {s size : Nat} (h : 0 < size) (hs : s + 2 * size < 2 ^ 32)
    (bytes : Nat → UInt8) : (Mb.create s size).Rep bytes [] := by
  refine ⟨⟨h, rfl, ?_⟩, ⟨?_, ?_⟩, ⟨?_, ?_⟩, rfl, Nat.zero_le _, ?_, holds_nil,
    fun m hm => absurd hm List.not_mem_nil⟩
  all_goals simp only [Mb.create]
  all_goals first | omega | simp

/-- The bytes of the region are all that counts. -/
theorem Rep.frame (h : mb.Rep bytes q) {bytes' : Nat → UInt8}
    (hf : ∀ a, mb.memoryStart ≤ a → a < mb.memoryEnd → bytes' a = bytes a) :
    mb.Rep bytes' q := by
  refine { h with held := h.held.frame h.region.pos fun a h1 h2 => hf a h1 ?_ }
  rw [h.region.stop_eq]
  exact h2

/-- `can_fit` says whether the free space is enough; for a message of no bytes it says 0 or -1
    only of a full ring. -/
theorem Rep.canFit_iff (h : mb.Rep bytes q) {n : Nat} (hn : 0 < n) :
    mb.canFit n = 1 ↔ q.flatten.length + n ≤ mb.capacity := by
  have hle := h.le
  have hf := h.region.fits
  have hsub : sub32 mb.capacity q.flatten.length = mb.capacity - q.flatten.length :=
    sub32_eq hle (by omega)
  rw [canFit, h.size, hsub]
  by_cases he : q.flatten.length = mb.capacity
  · rw [if_pos he]
    omega
  · rw [if_neg he]
    by_cases hlt : mb.capacity - q.flatten.length < n
    · rw [if_pos hlt]
      omega
    · rw [if_neg hlt]
      omega

/-- **`push_buffer` appends the message** when it fits, and changes no byte outside the ring. -/
theorem Rep.push (h : mb.Rep bytes q) (hb : msgHdrSize ≤ buf.length)
    (hfit : q.flatten.length + buf.length ≤ mb.capacity) :
    ∃ bytes' mb', mb.pushBuffer bytes buf = .ok (bytes', mb', 1) ∧
      mb'.Rep bytes' (q ++ [buf.msg]) ∧ mb'.capacity = mb.capacity ∧
      mb'.memoryStart = mb.memoryStart ∧ mb'.memoryEnd = mb.memoryEnd ∧
      ∀ z, z < mb.memoryStart ∨ mb.memoryEnd ≤ z → bytes' z = bytes z := by
  have h6 : msgHdrSize = 6 := rfl
  have hcan := (h.canFit_iff (by omega : 0 < buf.length)).mpr hfit
  obtain ⟨bytes', a', hcopy, ha', hmod, hin, hout⟩ :=
    copyIn_spec bytes buf h.region h.tail (n := buf.length) (by omega)
  have hstop := h.region.stop_eq
  have hpos := h.region.pos
  have hlen : (q ++ [buf.msg]).flatten.length = q.flatten.length + buf.length := by
    rw [List.flatten_append, List.length_append]
    simp
  refine ⟨bytes', { mb with tail := a', currentSize := add32 mb.currentSize buf.length }, ?_,
    ⟨⟨h.region.pos, h.region.stop_eq, h.region.fits⟩, h.head, ha', ?_, ?_, ?_, ?_, ?_⟩,
    rfl, rfl, rfl, ?_⟩
  · unfold pushBuffer
    rw [if_neg (by rw [hcan]; omega)]
    simp only [hcopy]
    rfl
  · rw [h.size, hlen]
    exact add32_eq (by have := h.region.fits; omega)
  · rw [hlen]
    exact hfit
  · rw [hlen, ← Nat.add_assoc, Nat.add_mod, ← h.tail_eq, ← Nat.add_mod]
    exact hmod
  · -- the new bytes start where the old ones end
    have hcell : ∀ i, cell mb.memoryStart mb.capacity (mb.tail - mb.memoryStart + i) =
        cell mb.memoryStart mb.capacity
          (mb.head - mb.memoryStart + q.flatten.length + i) := fun i => cell_add_congr h.tail_eq i
    rw [List.flatten_append, List.flatten_singleton]
    refine h.held.append (fun i hi => ?_) (fun z hz => hout z fun i hi => ?_) ?_
    · rw [Buf.length_msg] at hi
      rw [← hcell, hin i hi, Buf.getElem_msg]
    · rw [hcell]
      exact hz i (by rw [Buf.length_msg]; exact hi)
    · rw [Buf.length_msg]
      exact hfit
  · intro m hm
    rcases List.mem_append.mp hm with hm | hm
    · exact h.msgs m hm
    · rw [List.mem_singleton.mp hm]
      exact Buf.isMsg_msg hb
  · intro z hz
    refine hout z fun i _ => ?_
    have h1 := le_cell (s := mb.memoryStart) (C := mb.capacity)
      (i := mb.tail - mb.memoryStart + i)
    have h2 := cell_lt (s := mb.memoryStart) (C := mb.capacity)
      (i := mb.tail - mb.memoryStart + i) hpos
    omega

/-- `push_buffer` refuses a message that does not fit. -/
theorem Rep.push_full (h : mb.Rep bytes q) (hb : msgHdrSize ≤ buf.length)
    (hfit : ¬ q.flatten.length + buf.length ≤ mb.capacity) :
    mb.pushBuffer bytes buf = .ok (bytes, mb, 0) := by
  have h6 : msgHdrSize = 6 := rfl
  unfold pushBuffer
  rw [if_pos fun hc => hfit ((h.canFit_iff (by omega)).mp hc)]
  rfl

theorem Rep.size_eq_zero (h : mb.Rep bytes q) : mb.currentSize = 0 ↔ q = [] := by
  rw [h.size]
  refine ⟨fun h0 => ?_, fun e => by rw [e]; rfl⟩
  cases q with
  | nil => rfl
  | cons m q =>
      have h6 : msgHdrSize = 6 := rfl
      have := (h.msgs m List.mem_cons_self).header
      rw [List.flatten_cons, List.length_append] at h0
      omega

/-- The header of the oldest message, copied to the user's buffer. -/
theorem Rep.copy_header {m : List UInt8} (h : mb.Rep bytes (m :: q)) (buf : Buf) :
    ∃ a, mb.copyOut bytes mb.head buf 0 msgHdrSize = .ok (buf.put (m.take msgHdrSize), a) ∧
      (buf.put (m.take msgHdrSize)).length = m.length ∧ mb.Inside a ∧
      (a - mb.memoryStart) % mb.capacity =
        (mb.head - mb.memoryStart + msgHdrSize) % mb.capacity := by
  have hm := h.msgs m List.mem_cons_self
  have h6 := hm.header
  have hle := h.le
  rw [List.flatten_cons, List.length_append] at hle
  have hheld := h.held
  rw [List.flatten_cons] at hheld
  have hheld := (holds_append.mp hheld).1
  obtain ⟨buf', a, hcopy, ha, hmod, hin, hout⟩ :=
    copyOut_spec bytes buf 0 h.region h.head (n := msgHdrSize)
      (by omega)
  have hput : buf' = buf.put (m.take msgHdrSize) := by
    funext i
    have htl : (m.take msgHdrSize).length = msgHdrSize := by rw [List.length_take]; omega
    rcases Nat.lt_or_ge i msgHdrSize with hlt | hge
    · have := hin i hlt
      rw [Nat.zero_add] at this
      rw [this, hheld i (by omega), Buf.put_of_lt (by omega), List.getElem_take]
    · rw [hout i (by omega), Buf.put_of_ge (by omega)]
  rw [hput] at hcopy
  refine ⟨a, hcopy, Buf.length_of_header hm fun i hi him => ?_, ha, hmod⟩
  rw [Buf.put_of_lt (by rw [List.length_take]; omega), List.getElem_take]

/-- The second half of `pop_buffer`, once the header is in the user's buffer. -/
theorem popBuffer_eq {length a : Nat} {buf' : Buf} (hne : mb.currentSize ≠ 0)
    (hlen : msgHdrSize ≤ length)
    (hcopy : mb.copyOut bytes mb.head buf 0 msgHdrSize = .ok (buf', a)) :
    mb.popBuffer bytes buf length =
      if length < buf'.length then .ok (mb, buf', -1)
      else
        (mb.copyOut bytes a buf' msgHdrSize (sub32 buf'.length msgHdrSize)).bind fun r =>
          .ok ({ mb with head := r.2, currentSize := sub32 mb.currentSize r.1.length }, r.1, 1) := by
  unfold popBuffer
  rw [if_neg hne, if_neg (by omega), hcopy]
  rfl

/-- **`pop_buffer` hands out the oldest message** when the buffer is long enough. -/
theorem Rep.pop {m : List UInt8} (h : mb.Rep bytes (m :: q)) {length : Nat}
    (hlen : m.length ≤ length) (buf : Buf) :
    ∃ mb', mb.popBuffer bytes buf length = .ok (mb', buf.put m, 1) ∧ mb'.Rep bytes q ∧
      mb'.capacity = mb.capacity ∧ mb'.memoryStart = mb.memoryStart ∧
      mb'.memoryEnd = mb.memoryEnd := by
  have hm := h.msgs m List.mem_cons_self
  have h6 := hm.header
  have hle := h.le
  rw [List.flatten_cons, List.length_append] at hle
  have hf := h.region.fits
  have hne : mb.currentSize ≠ 0 := fun h0 => absurd (h.size_eq_zero.mp h0) (by simp)
  obtain ⟨a, hcopy, hl, ha, hmod⟩ := h.copy_header buf
  obtain ⟨buf', a', hcopy', ha', hmod', hin', hout'⟩ :=
    copyOut_spec bytes (buf.put (m.take msgHdrSize)) msgHdrSize h.region ha
      (n := m.length - msgHdrSize) (by omega)
  have hheld := h.held
  rw [List.flatten_cons] at hheld
  obtain ⟨hheld, hrest⟩ := holds_append.mp hheld
  have htl : (m.take msgHdrSize).length = msgHdrSize := by rw [List.length_take]; omega
  have hput : buf' = buf.put m := by
    funext i
    rcases Nat.lt_or_ge i msgHdrSize with hlt | hge
    · rw [hout' i (by omega), Buf.put_of_lt (by omega), Buf.put_of_lt (by omega),
        List.getElem_take]
    · rcases Nat.lt_or_ge i m.length with hlt | hge'
      · have := hin' (i - msgHdrSize) (by omega)
        rw [Nat.add_sub_cancel' hge] at this
        rw [this, Buf.put_of_lt hlt, cell_add_congr hmod, Nat.add_assoc, Nat.add_sub_cancel' hge]
        exact hheld i hlt
      · rw [hout' i (by omega), Buf.put_of_ge (by omega), Buf.put_of_ge (by omega)]
  -- the new head is `m.length` positions on
  have hhead : (a' - mb.memoryStart) % mb.capacity =
      (mb.head - mb.memoryStart + m.length) % mb.capacity := by
    rw [hmod', Nat.add_mod, hmod, ← Nat.add_mod, Nat.add_assoc]
    congr 2
    omega
  refine ⟨{ mb with head := a', currentSize := sub32 mb.currentSize m.length }, ?_,
    ⟨⟨h.region.pos, h.region.stop_eq, h.region.fits⟩, ha', h.tail, ?_, ?_, ?_, ?_, ?_⟩,
    rfl, rfl, rfl⟩
  · have hsub : sub32 m.length msgHdrSize = m.length - msgHdrSize :=
      sub32_eq h6 (by omega)
    rw [popBuffer_eq hne (by omega) hcopy, if_neg (by omega), hl, hsub, hcopy', hput]
    simp only [Except.bind, Buf.length_put hm]
  · show sub32 mb.currentSize m.length = _
    rw [h.size, List.flatten_cons, List.length_append, sub32_eq (by omega) (by omega)]
    omega
  · show q.flatten.length ≤ mb.capacity
    omega
  · rw [Nat.add_mod, hhead, ← Nat.add_mod, Nat.add_assoc]
    have := h.tail_eq
    rw [List.flatten_cons, List.length_append] at this
    exact this
  · exact hrest.of_mod_eq hhead
  · exact fun m' hm' => h.msgs m' (List.mem_cons_of_mem _ hm')

/-- `pop_buffer` leaves the ring alone when the buffer is too short for the oldest message; it
    may have written the header. -/
theorem Rep.pop_short {m : List UInt8} (h : mb.Rep bytes (m :: q)) {length : Nat}
    (hlen : length < m.length) :
    mb.popBuffer bytes buf length =
      .ok (mb, if length < msgHdrSize then buf else buf.put (m.take msgHdrSize), -1) := by
  have hne : mb.currentSize ≠ 0 := fun h0 => absurd (h.size_eq_zero.mp h0) (by simp)
  by_cases hs : length < msgHdrSize
  · unfold popBuffer
    rw [if_neg hne, if_pos hs, if_pos hs]
    rfl
  · obtain ⟨a, hcopy, hl, -, -⟩ := h.copy_header buf
    rw [popBuffer_eq hne (Nat.le_of_not_lt hs) hcopy, if_neg hs, if_pos (by omega)]

theorem Rep.pop_empty (h : mb.Rep bytes []) (length : Nat) :
    mb.popBuffer bytes buf length = .ok (mb, buf, 0) := by
  unfold popBuffer
  rw [if_pos (h.size_eq_zero.mpr rfl)]
  rfl

/-! ## 4. Sequences of calls -/

/-- A call on a ring. -/
inductive Op where
  | push (buf : Buf)
  | pop (buf : Buf) (length : Nat)

/-- What a call on a ring returns: its result, and the buffer of a `pop_buffer`. -/
inductive Out where
  | push (result : Int)
  | pop (result : Int) (buf : Buf)

/-- One call of the code: what it returns, and the ring and the memory it leaves. -/
def call (mb : Mb) (bytes : Nat → UInt8) : Op → Except Fault (Out × Mb × (Nat → UInt8))
  | .push buf => do
      let (bytes, mb, r) ← mb.pushBuffer bytes buf
      return (.push r, mb, bytes)
  | .pop buf length => do
      let (mb, buf, r) ← mb.popBuffer bytes buf length
      return (.pop r buf, mb, bytes)

/-- The calls of a list in turn. -/
def calls (mb : Mb) (bytes : Nat → UInt8) : List Op → Except Fault (List Out × Mb × (Nat → UInt8))
  | [] => .ok ([], mb, bytes)
  | op :: ops => do
      let (out, mb, bytes) ← mb.call bytes op
      let (outs, mb, bytes) ← mb.calls bytes ops
      return (out :: outs, mb, bytes)

end Mb

namespace Chan

/-- A call on a queue of byte strings of which at most `capacity` bytes may be pending. -/
def call (capacity : Nat) (q : List (List UInt8)) : Mb.Op → Mb.Out × List (List UInt8)
  | .push buf =>
      if q.flatten.length + buf.length ≤ capacity then (.push 1, q ++ [buf.msg]) else (.push 0, q)
  | .pop buf length =>
      match q with
      | [] => (.pop 0 buf, [])
      | m :: q' =>
          if length < m.length then
            (.pop (-1) (if length < msgHdrSize then buf else buf.put (m.take msgHdrSize)), m :: q')
          else (.pop 1 (buf.put m), q')

def calls (capacity : Nat) (q : List (List UInt8)) :
    List Mb.Op → List Mb.Out × List (List UInt8)
  | [] => ([], q)
  | op :: ops =>
      let (out, q) := call capacity q op
      let (outs, q) := calls capacity q ops
      (out :: outs, q)

end Chan

namespace Mb

variable {mb : Mb} {bytes : Nat → UInt8} {q : List (List UInt8)}

/-- The messages pushed have a header. -/
def Op.Proper : Op → Prop
  | .push buf => msgHdrSize ≤ buf.length
  | .pop _ _ => True

/-- What no call touches: the region of the ring and every byte outside it. -/
structure Stays (mb : Mb) (bytes : Nat → UInt8) (mb' : Mb) (bytes' : Nat → UInt8) : Prop where
  capacity : mb'.capacity = mb.capacity
  start : mb'.memoryStart = mb.memoryStart
  stop : mb'.memoryEnd = mb.memoryEnd
  outside : ∀ z, z < mb.memoryStart ∨ mb.memoryEnd ≤ z → bytes' z = bytes z

theorem Stays.refl (mb : Mb) (bytes : Nat → UInt8) : mb.Stays bytes mb bytes :=
  ⟨rfl, rfl, rfl, fun _ _ => rfl⟩

theorem Stays.trans {mb' mb'' : Mb} {bytes' bytes'' : Nat → UInt8}
    (h : mb.Stays bytes mb' bytes') (h' : mb'.Stays bytes' mb'' bytes'') :
    mb.Stays bytes mb'' bytes'' := by
  refine ⟨h'.capacity.trans h.capacity, h'.start.trans h.start, h'.stop.trans h.stop, ?_⟩
  intro z hz
  rw [h'.outside z (by rw [h.start, h.stop]; exact hz), h.outside z hz]

/-- What each call does on the ring `mb` when it holds the messages `q`. -/
structure Answers (mb : Mb) (bytes : Nat → UInt8) (q : List (List UInt8)) : Prop where
  /-- A message that fits is appended. -/
  push : ∀ buf, msgHdrSize ≤ buf.length → (q.map List.length).sum + buf.length ≤ mb.capacity →
    ∃ bytes' mb', mb.pushBuffer bytes buf = .ok (bytes', mb', 1) ∧
      mb'.Rep bytes' (q ++ [buf.msg]) ∧ mb.Stays bytes mb' bytes'
  /-- A message that does not fit is refused, and nothing changes. -/
  full : ∀ buf, msgHdrSize ≤ buf.length → mb.capacity < (q.map List.length).sum + buf.length →
    mb.pushBuffer bytes buf = .ok (bytes, mb, 0)
  /-- An empty ring hands out nothing. -/
  empty : q = [] → ∀ buf length, mb.popBuffer bytes buf length = .ok (mb, buf, 0)
  /-- A buffer that is too short leaves the ring as it is. -/
  short : ∀ m q', q = m :: q' → ∀ buf length, length < m.length →
    ∃ buf', mb.popBuffer bytes buf length = .ok (mb, buf', -1)
  /-- A buffer that is long enough gets the bytes of the oldest message, and no others. -/
  pop : ∀ m q', q = m :: q' → ∀ buf length, m.length ≤ length →
    ∃ mb', mb.popBuffer bytes buf length = .ok (mb', buf.put m, 1) ∧
      mb'.Rep bytes q' ∧ mb.Stays bytes mb' bytes

theorem Rep.answers (h : mb.Rep bytes q) : mb.Answers bytes q where
  push buf hb hfit := by
    rw [← List.length_flatten] at hfit
    obtain ⟨bytes', mb', h1, h2, h3, h4, h5, h6⟩ := h.push hb hfit
    exact ⟨bytes', mb', h1, h2, h3, h4, h5, h6⟩
  full buf hb hfit := by
    rw [← List.length_flatten] at hfit
    exact h.push_full hb (Nat.not_le.mpr hfit)
  empty hq buf length := by
    subst hq
    exact h.pop_empty length
  short m q' hq buf length hlen := by
    subst hq
    exact ⟨_, h.pop_short hlen⟩
  pop m q' hq buf length hlen := by
    subst hq
    obtain ⟨mb', h1, h2, h3, h4, h5⟩ := h.pop hlen buf
    exact ⟨mb', h1, h2, h3, h4, h5, fun _ _ => rfl⟩

/-- **A call on the ring returns what the call on the queue returns** and keeps the
    representation; it never leaves the ring. -/
theorem Rep.call (h : mb.Rep bytes q) {op : Op} (hop : op.Proper) :
    ∃ mb' bytes', mb.call bytes op = .ok ((Chan.call mb.capacity q op).1, mb', bytes') ∧
      mb'.Rep bytes' (Chan.call mb.capacity q op).2 ∧ mb.Stays bytes mb' bytes' := by
  cases op with
  | push buf =>
      by_cases hfit : q.flatten.length + buf.length ≤ mb.capacity
      · obtain ⟨bytes', mb', h1, h2, h3, h4, h5, h6⟩ := h.push hop hfit
        simp only [Mb.call, Chan.call, h1, if_pos hfit]
        exact ⟨mb', bytes', rfl, h2, h3, h4, h5, h6⟩
      · simp only [Mb.call, Chan.call, h.push_full hop hfit, if_neg hfit]
        exact ⟨mb, bytes, rfl, h, .refl mb bytes⟩
  | pop buf length =>
      cases q with
      | nil =>
          simp only [Mb.call, Chan.call, h.pop_empty]
          exact ⟨mb, bytes, rfl, h, .refl mb bytes⟩
      | cons m q =>
          by_cases hlen : length < m.length
          · simp only [Mb.call, Chan.call, h.pop_short hlen, if_pos hlen]
            exact ⟨mb, bytes, rfl, h, .refl mb bytes⟩
          · obtain ⟨mb', h1, h2, h3, h4, h5⟩ := h.pop (Nat.le_of_not_lt hlen) buf
            simp only [Mb.call, Chan.call, h1, if_neg hlen]
            exact ⟨mb', bytes, rfl, h2, h3, h4, h5, fun _ _ => rfl⟩

theorem Rep.calls (h : mb.Rep bytes q) {ops : List Op} (hops : ∀ op ∈ ops, op.Proper) :
    ∃ mb' bytes', mb.calls bytes ops = .ok ((Chan.calls mb.capacity q ops).1, mb', bytes') ∧
      mb'.Rep bytes' (Chan.calls mb.capacity q ops).2 ∧ mb.Stays bytes mb' bytes' := by
  induction ops generalizing mb bytes q with
  | nil => exact ⟨mb, bytes, rfl, h, .refl mb bytes⟩
  | cons op ops ih =>
      obtain ⟨mb', bytes', h1, h2, h3⟩ := h.call (hops op List.mem_cons_self)
      obtain ⟨mb'', bytes'', h4, h5, h6⟩ :=
        ih h2 fun op' hop' => hops op' (List.mem_cons_of_mem _ hop')
      rw [h3.capacity] at h4 h5
      refine ⟨mb'', bytes'', ?_, h5, h3.trans h6⟩
      unfold Mb.calls
      rw [h1]
      simp only [bind, Except.bind, h4]
      rfl

/-- **The circular buffer refines a queue of byte strings.** From the empty ring of
    `k_mbx_create` every sequence of calls returns what the queue returns, writes no byte outside
    the ring, and leaves in it the messages of the queue, whose lengths sum up to `current_size`;
    and there each further call does what it does on the queue, a refused one nothing. -/
theorem run_refines (s capacity : Nat) (bytes : Nat → UInt8) (ops : List Op)
    (hcap : msgHdrSize ≤ capacity) (hs : s + 2 * capacity < 2 ^ 32)
    (hops : ∀ op ∈ ops, op.Proper) :
    ∃ mb bytes', (create s capacity).calls bytes ops =
        .ok ((Chan.calls capacity [] ops).1, mb, bytes') ∧
      mb.Rep bytes' (Chan.calls capacity [] ops).2 ∧
      mb.currentSize = ((Chan.calls capacity [] ops).2.map List.length).sum ∧
      (create s capacity).Stays bytes mb bytes' ∧
      mb.Answers bytes' (Chan.calls capacity [] ops).2 := by
  have h6 : msgHdrSize = 6 := rfl
  obtain ⟨mb, bytes', h1, h2, h3⟩ := (Rep.create (by omega) hs bytes).calls hops
  refine ⟨mb, bytes', h1, h2, ?_, h3, h2.answers⟩
  rw [← List.length_flatten]
  exact h2.size

/-- A ring of 10 bytes: of two messages of 6 bytes the second does not fit, and the first comes
    out again. -/
theorem run_refines_two :
    let ops := [.push (Buf.ofMsg [6, 0, 0, 0, 1, 2]), .push (Buf.ofMsg [6, 0, 0, 0, 1, 3]),
      .pop (fun _ => 0) 6]
    ∃ mb bytes', (create 0x2007C000 10).calls (fun _ => 0) ops =
        .ok ((Chan.calls 10 [] ops).1, mb, bytes') ∧
      mb.Rep bytes' (Chan.calls 10 [] ops).2 ∧
      mb.currentSize = ((Chan.calls 10 [] ops).2.map List.length).sum ∧
      (create 0x2007C000 10).Stays (fun _ => 0) mb bytes' ∧
      mb.Answers bytes' (Chan.calls 10 [] ops).2 := by
  intro ops
  apply run_refines 0x2007C000 10 _ ops (by decide) (by decide)
  intro op hop
  simp only [ops, List.mem_cons, List.not_mem_nil, or_false] at hop
  rcases hop with rfl | rfl | rfl
  · show 6 ≤ Buf.length _
    decide
  · show 6 ≤ Buf.length _
    decide
  · trivial

end Mb

end Rtx
