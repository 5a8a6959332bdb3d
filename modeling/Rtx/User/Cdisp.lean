/-
  File:      Rtx/User/Cdisp.lean
  Subject:   The console display task: one message for the console, forwarded to the UART.

  `task_cdisp` asks for as many bytes as the text has and writes the header in front of it there,
  six bytes more. Whether they fit depends on what the allocator's rounding leaves
  (`forward_inside`). The bytes are written one by one, as the bounds of the block matter; the
  interrupt-enable register that the task sets at the end is left out.
-/
import Rtx.Mem.Pools
import Rtx.User.Request

namespace Rtx

open Lib Proc

/-! ## 1. The code -/

/-- Bytes written to memory from `a` on. -/
def storeAll : Nat → List UInt8 → UserM Unit
  | _, [] => return ()
  | a, b :: bs => do
      Sys.store a b
      storeAll (a + 1) bs

/-- The message in the block `cmdBuffer`, built and sent. -/
def forward (cmdBuffer stringLength : Nat) (buf : Buf) : UserM Unit := do
  let uartMessage := fun i => buf (msgHdrSize + i)
  storeAll cmdBuffer (word (add32 msgHdrSize stringLength))
  Sys.store (cmdBuffer + 5) display
  Sys.store (cmdBuffer + 4) (UInt8.ofNat tidCon)
  Sys.store (cmdBuffer + msgHdrSize) (uartMessage 0)
  let data := (List.range stringLength).map uartMessage
  storeAll (cmdBuffer + msgHdrSize) data
  let _ ← Sys.sendMsg tidUart (Buf.ofMsg (message (UInt8.ofNat tidCon) display data))
  let _ ← Sys.memDealloc (some cmdBuffer)
  return ()

/-- A turn of the loop of `task_cdisp`, from the return of `recv_msg` on. -/
def cdisp (buf : Buf) : UserM Unit := do
  if buf.type = display then
    let stringLength := sub32 buf.length msgHdrSize
    let cmdBuffer ← nonNull (← Sys.memAlloc stringLength)
    forward cmdBuffer stringLength buf

/-! ## 2. The bytes written -/

/-- The address of a byte that is written. -/
def Request.written : Request → Option Nat
  | .store addr _ => some addr
  | _ => none

/-- The addresses of the bytes that a run writes. -/
def writes (tr : List (Exchange Answer)) : List Nat := tr.filterMap fun x => x.req.written

variable {env : Env Answer} {buf : Buf} {A : Exchange Answer → Prop} {a n : Nat}

@[simp] theorem writes_append (tr tr' : List (Exchange Answer)) :
    writes (tr ++ tr') = writes tr ++ writes tr' := List.filterMap_append

theorem writes_cons (x : Exchange Answer) (tr : List (Exchange Answer)) :
    writes (x :: tr) = x.req.written.toList ++ writes tr := by
  unfold writes
  rw [List.filterMap_cons]
  cases x.req.written with
  | none => rfl
  | some m => rfl

theorem sat_storeAll (bs : List UInt8) : Sat A (storeAll a bs) (fun _ _ => False)
    fun tr _ => writes tr = List.range' a bs.length := by
  induction bs generalizing a with
  | nil => exact rfl
  | cons b bs ih =>
      intro x _
      refine ih.imp fun tr _ htr => ?_
      show writes (_ :: tr) = _
      rw [writes_cons, htr]
      rfl

/-- The header, the first byte of the text, and the text. -/
theorem sat_forward : Sat A (forward a n buf) (fun _ _ => False) fun tr _ =>
    writes tr = List.range' a 4 ++ [a + 5, a + 4, a + 6] ++ List.range' (a + 6) n := by
  unfold forward
  refine (sat_storeAll _).bind fun tr1 _ h1 => ?_
  intro _ _ _ _ _ _
  refine (sat_storeAll _).bind fun tr2 _ h2 => ?_
  intro _ _ _ _
  rw [List.length_map, List.length_range] at h2
  show writes (tr1 ++ ⟨_, _⟩ :: ⟨_, _⟩ :: ⟨_, _⟩ :: (tr2 ++ [⟨_, _⟩, ⟨_, _⟩])) = _
  simp only [writes_append, writes_cons, h1, h2]
  simp [Request.written, word, msgHdrSize, writes]

theorem writes_forward (past : List (Exchange Answer)) :
    writes (play env (forward a n buf) past).1 =
      List.range' a 4 ++ [a + 5, a + 4, a + 6] ++ List.range' (a + 6) n := by
  have hs : Sat (fun _ => True) (forward a n buf) _ _ := sat_forward
  obtain ⟨-, -, hw⟩ := hs.returns env past fun _ _ => trivial
  exact hw

/-- Every byte of the message is written, and nothing else. -/
theorem mem_writes {tr : List (Exchange Answer)} (hn : 0 < n)
    (h : writes tr = List.range' a 4 ++ [a + 5, a + 4, a + 6] ++ List.range' (a + 6) n) (x : Nat) :
    x ∈ writes tr ↔ a ≤ x ∧ x < a + (msgHdrSize + n) := by
  have h6 : msgHdrSize = 6 := rfl
  rw [h]
  simp only [List.mem_append, List.mem_range'_1, List.mem_cons, List.not_mem_nil, or_false]
  omega

/-! ## 3. The block -/

/-- The block for a text that comes through the console's mailbox. -/
theorem blockBytes_text (hn : n ≤ 122) :
    blockBytes n = if n ≤ 32 then 32 else if n ≤ 64 then 64 else 128 := by
  have hclog : ∀ k, Nat.clog 2 n ≤ k ↔ n ≤ 2 ^ k := fun k =>
    Nat.clog_le_iff_le_pow Nat.one_lt_two
  have h5 := hclog 5
  have h6 := hclog 6
  have h7 := hclog 7
  unfold blockBytes blockLog2 minBlkSizeLog2
  split
  · rw [show max 5 (Nat.clog 2 n) = 5 by omega]
    rfl
  split
  · rw [show max 5 (Nat.clog 2 n) = 6 by omega]
    rfl
  · rw [show max 5 (Nat.clog 2 n) = 7 by omega]
    rfl

/-- The lengths of a text for which the message fits in the block for the text. -/
def TextFits (n : Nat) : Prop := 1 ≤ n ∧ n ≤ 26 ∨ 33 ≤ n ∧ n ≤ 58 ∨ 65 ≤ n

theorem textFits_iff (hn : n ≤ 122) : TextFits n ↔ 0 < n ∧ msgHdrSize + n ≤ blockBytes n := by
  have h6 : msgHdrSize = 6 := rfl
  rw [blockBytes_text hn, TextFits]
  split_ifs
  all_goals omega

/-- The first block that the task gets is the one the allocator hands out in `m`. -/
def AllocatesFrom (env : Env Answer) (m : Mem) : Prop :=
  ∀ size, ∃ m', kMpoolAlloc m mpidIram1 size = some (m', env [] (.memAlloc size))

/-- **The message is built inside its block**: there is one, and what is written is in it. -/
def BuiltInside (env : Env Answer) (buf : Buf) : Prop :=
  ∃ a, env [] (.memAlloc (sub32 buf.length msgHdrSize)) = some a ∧
    ∀ x ∈ writes (play env (cdisp buf) []).1,
      a ≤ x ∧ x < a + blockBytes (sub32 buf.length msgHdrSize)

variable {s : Pools}

/-- The task first asks for a block. -/
theorem cdisp_eq (ht : buf.type = display) : cdisp buf =
    .ask (.memAlloc (sub32 buf.length msgHdrSize)) fun x =>
      nonNull x >>= fun cmdBuffer => forward cmdBuffer (sub32 buf.length msgHdrSize) buf := by
  unfold cdisp
  generalize sub32 buf.length msgHdrSize = n
  rw [if_pos ht]
  rfl

theorem writes_cdisp (ht : buf.type = display) (hn : sub32 buf.length msgHdrSize = n)
    (ha : env [] (.memAlloc n) = some a) :
    writes (play env (cdisp buf) []).1 =
      List.range' a 4 ++ [a + 5, a + 4, a + 6] ++ List.range' (a + 6) n := by
  rw [cdisp_eq ht, hn, play_ask, ha]
  exact writes_forward _

/-- The allocator hands out a block when it has one that is large enough. -/
theorem AllocatesFrom.some (henv : AllocatesFrom env s.mem) (hI : s.Inv) (h0 : n ≠ 0)
    (hn : n ≤ iram1.size)
    (hfree : ∃ l ≤ iram1.levelFor n, (s.mem.ram1.freeList l).head ≠ none) :
    ∃ a, env [] (.memAlloc n) = some a := by
  obtain ⟨m', hm'⟩ := henv n
  have heq := Pools.kMpoolAlloc_eq s.mem .iram1 n
  have hpool := (hI .iram1).pool
  rcases hpool.alloc_spec h0 hn with ⟨-, hno⟩ | ⟨p, q, hp, -⟩
  · obtain ⟨l, hl, hhead⟩ := hfree
    obtain ⟨a, ha⟩ := Option.ne_none_iff_exists'.mp hhead
    obtain ⟨g, hg, hv, -⟩ := hpool.rep.head_addr (hl.trans (PoolInv.levelFor_le iram1 n)) ha
    exact absurd hv (hno g (hg ▸ hl))
  · rw [show (s.mem.pool .iram1).alloc PoolId.iram1.cfg n = _ from hp] at heq
    exact ⟨_, congrArg Prod.snd (Option.some.inj (hm'.symm.trans heq))⟩

/-- **Console forwarding stays inside its block** exactly for texts of 1 to 26, 33 to 58 and 65 to
    122 characters. -/
theorem forward_inside (hI : s.Inv) (henv : AllocatesFrom env s.mem) (ht : buf.type = display)
    (h6 : msgHdrSize ≤ buf.length) (hlen : buf.length ≤ conMbxSize)
    (hfree : ∃ l ≤ iram1.levelFor (buf.length - msgHdrSize),
      (s.mem.ram1.freeList l).head ≠ none) :
    BuiltInside env buf ↔ TextFits (buf.length - msgHdrSize) := by
  have h128 : conMbxSize = 128 := rfl
  have hh : msgHdrSize = 6 := rfl
  have hsub : sub32 buf.length msgHdrSize = buf.length - msgHdrSize := sub32_eq h6 buf.length_lt
  have hn : buf.length - msgHdrSize ≤ 122 := by omega
  rw [textFits_iff hn, BuiltInside]
  by_cases h0 : buf.length - msgHdrSize = 0
  · -- `mem_alloc(0)` is NULL
    constructor
    · intro hp
      obtain ⟨a, ha, -⟩ := hp
      obtain ⟨m', hm'⟩ := henv 0
      have hnull : kMpoolAlloc s.mem mpidIram1 0 = some (s.mem, none) := rfl
      have hnone : env [] (.memAlloc 0) = none :=
        congrArg Prod.snd (Option.some.inj (hm'.symm.trans hnull))
      rw [hsub, h0, hnone] at ha
      cases ha
    · intro hp
      obtain ⟨hpos, -⟩ := hp
      omega
  · obtain ⟨a, ha⟩ := henv.some hI h0 (hn.trans (by decide)) hfree
    rw [← hsub] at ha h0 ⊢
    have hmem := mem_writes (Nat.pos_of_ne_zero h0) (writes_cdisp ht rfl ha)
    constructor
    · intro hp
      obtain ⟨b, hb, hin⟩ := hp
      obtain rfl : a = b := Option.some.inj (ha.symm.trans hb)
      have hlast := hin (a + (msgHdrSize + sub32 buf.length msgHdrSize) - 1)
        ((hmem _).mpr (by omega))
      omega
    · intro hp
      obtain ⟨-, hfit⟩ := hp
      refine ⟨a, ha, fun x hx => ?_⟩
      have := (hmem x).mp hx
      omega

/-- The allocator always answers. -/
theorem allocatesFrom_pools (hI : s.Inv) : AllocatesFrom
    (answering fun size => (kMpoolAlloc s.mem mpidIram1 size).bind Prod.snd) s.mem := by
  intro size
  have heq := Pools.kMpoolAlloc_eq s.mem .iram1 size
  have hret : ∃ m r, kMpoolAlloc s.mem mpidIram1 size = some (m, r) := by
    rcases (hI .iram1).alloc size with ⟨e, he⟩ | ⟨p, a, hp, -⟩
    · rw [show (s.mem.pool .iram1).alloc PoolId.iram1.cfg size = _ from he] at heq
      exact ⟨_, _, heq⟩
    · rw [show (s.mem.pool .iram1).alloc PoolId.iram1.cfg size = _ from hp] at heq
      exact ⟨_, _, heq⟩
  obtain ⟨m, r, h⟩ := hret
  refine ⟨m, ?_⟩
  show _ = some (m, (kMpoolAlloc s.mem mpidIram1 size).bind Prod.snd)
  rw [h]
  rfl

/-- A text for the console. -/
def displayText (n : Nat) : Buf :=
  Buf.ofMsg (message (UInt8.ofNat tidKcd) display (List.replicate n (char 'x')))

theorem forward_inside_line : BuiltInside
    (answering fun size => (kMpoolAlloc (Pools.init Pools.blank).mem mpidIram1 size).bind Prod.snd)
    (displayText 17) :=
  (forward_inside (Pools.Inv.init _) (allocatesFrom_pools (Pools.Inv.init _)) rfl (by decide)
    (by decide) ⟨0, Nat.zero_le _, by decide +kernel⟩).mpr (by
      unfold TextFits
      decide)

/-- **A text of 27 characters does not fit**: the message has 33 bytes and its block 32. -/
theorem text_overruns : ¬ ∀ (s : Pools) (env : Env Answer) (buf : Buf), s.Inv →
    AllocatesFrom env s.mem → buf.type = display → msgHdrSize ≤ buf.length →
    buf.length ≤ conMbxSize →
    (∃ l ≤ iram1.levelFor (buf.length - msgHdrSize), (s.mem.ram1.freeList l).head ≠ none) →
    BuiltInside env buf := by
  intro h
  obtain ⟨a, ha, hin⟩ := h (Pools.init Pools.blank) _ (displayText 27) (Pools.Inv.init _)
    (allocatesFrom_pools (Pools.Inv.init _)) rfl (by decide) (by decide)
    ⟨0, Nat.zero_le _, by decide +kernel⟩
  have h27 : sub32 (displayText 27).length msgHdrSize = 27 := by decide +kernel
  rw [h27] at ha hin
  have hlast := hin (a + 32) ((mem_writes (by decide) (writes_cdisp rfl h27 ha) _).mpr
    ⟨by omega, Nat.add_lt_add_left (by decide) a⟩)
  rw [blockBytes_text (by decide)] at hlast
  exact absurd hlast.2 (by simp)

end Rtx
