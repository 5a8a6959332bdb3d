/-
  File:      Rtx/Mem/Layout.lean
  Subject:   Where the nodes of a pool's block tree lie: their bits and their addresses.

  A pool of `2 ^ sizeLog2` bytes is a tree of depth `depth` (the level of the 32-byte blocks).
  `set_bit`, `clear_bit` and `check_bit` on the bit tree are ordinary bit updates, and the
  arithmetic of k_mem.c (`get_address`, `get_buddy_address`, the offset of a node) moves between
  a node, its parent and its sibling.
-/
import Rtx.Lib.BlockTree
import Rtx.Mem.Pool

namespace Rtx

open BlockTree

/-! ## 1. Bits -/

theorem and_one_shift (x : BitVec 8) (q : Nat) (h : q < 8) :
    (x &&& (1#8 <<< q) != 0#8) = x.getLsbD q := by
  rw [← BitVec.twoPow_eq, BitVec.and_twoPow]
  split
  · rename_i hx
    rw [hx]
    simp only [BitVec.twoPow_eq, bne_iff_ne, ne_eq]
    intro e
    have := congrArg (fun y => y.getLsbD q) e
    simp [h] at this
  · rename_i hx
    simpa using hx

theorem checkBit_eq (a : Nat → BitVec 8) (j : Nat) :
    checkBit a j = (a (j / 8)).getLsbD (j % 8) :=
  and_one_shift _ _ (Nat.mod_lt _ (by decide))

theorem getLsbD_one_shift {p q : Nat} (h : p < 8) :
    (1#8 <<< p).getLsbD q = decide (q = p) := by
  rw [← BitVec.twoPow_eq, BitVec.getLsbD_twoPow]
  simp [h, eq_comm]

/-- The bit position of an index inside its byte. -/
theorem index_eq_iff {i j : Nat} (h : j / 8 = i / 8) : j = i ↔ j % 8 = i % 8 := by
  refine ⟨fun e => e ▸ rfl, fun e => ?_⟩
  omega

theorem checkBit_setBit (a : Nat → BitVec 8) (i j : Nat) :
    checkBit (setBit a i) j = (decide (j = i) || checkBit a j) := by
  have hi : i % 8 < 8 := Nat.mod_lt _ (by decide)
  rw [checkBit_eq, checkBit_eq, setBit, Function.update_apply]
  by_cases h : j / 8 = i / 8
  · rw [if_pos h, BitVec.getLsbD_or, getLsbD_one_shift hi, h, Bool.or_comm]
    simp only [index_eq_iff h]
  · have : j ≠ i := fun e => h (e ▸ rfl)
    simp [h, this]

theorem checkBit_clearBit (a : Nat → BitVec 8) (i j : Nat) :
    checkBit (clearBit a i) j = (!decide (j = i) && checkBit a j) := by
  have hi : i % 8 < 8 := Nat.mod_lt _ (by decide)
  have hj : j % 8 < 8 := Nat.mod_lt _ (by decide)
  rw [checkBit_eq, checkBit_eq, clearBit, Function.update_apply]
  by_cases h : j / 8 = i / 8
  · rw [if_pos h, BitVec.getLsbD_and, BitVec.getLsbD_not, getLsbD_one_shift hi, h,
      Bool.and_comm]
    simp only [index_eq_iff h, hj, decide_true, Bool.true_and]
  · have : j ≠ i := fun e => h (e ▸ rfl)
    simp [h, this]

theorem power2_eq {n : Nat} (h : n < 32) : power2 n = 2 ^ n := by
  induction n with
  | zero => rfl
  | succ n ih =>
      have hlt : 2 ^ (n + 1) < 2 ^ 32 := Nat.pow_lt_pow_right (by decide) h
      rw [power2, ih (by omega), ← Nat.pow_succ, Nat.mod_eq_of_lt hlt]

theorem bitIndex_eq {l : Nat} (h : l < 32) (x : Nat) : bitIndex l x = 2 ^ l - 1 + x := by
  rw [bitIndex, power2_eq h]

/-- Different nodes have different bits. -/
theorem bitIndex_inj {n m : Path} (hn : n.length < 32) (hm : m.length < 32)
    (h : bitIndex n.length (index n) = bitIndex m.length (index m)) : n = m := by
  have hin := index_lt n
  have him := index_lt m
  have hpn := Nat.two_pow_pos n.length
  have hpm := Nat.two_pow_pos m.length
  rw [bitIndex_eq hn, bitIndex_eq hm] at h
  have hl : n.length = m.length := by
    rcases Nat.lt_trichotomy n.length m.length with hlt | he | hlt
    · have := Nat.pow_le_pow_right (n := 2) (by decide) (Nat.succ_le_of_lt hlt)
      rw [Nat.pow_succ] at this
      omega
    · exact he
    · have := Nat.pow_le_pow_right (n := 2) (by decide) (Nat.succ_le_of_lt hlt)
      rw [Nat.pow_succ] at this
      omega
  rw [hl] at h
  exact eq_of_index_eq hl (by omega)

/-- The tree's bits come before `2 ^ (d + 1) - 1`, `d` its deepest level. -/
theorem bitIndex_lt {n : Path} {d : Nat} (hd : d < 32) (hn : n.length ≤ d) :
    bitIndex n.length (index n) < 2 ^ (d + 1) - 1 := by
  have hi := index_lt n
  have h1 := Nat.two_pow_pos n.length
  have h2 := Nat.pow_le_pow_right (n := 2) (by decide) (Nat.succ_le_succ hn)
  rw [bitIndex_eq (by omega)]
  rw [Nat.succ_eq_add_one, Nat.succ_eq_add_one, Nat.pow_succ] at h2
  omega

/-- Every bit before that belongs to a node. -/
theorem exists_bitIndex {d i : Nat} (hd : d < 32) (hi : i < 2 ^ (d + 1) - 1) :
    ∃ n : Path, n.length ≤ d ∧ bitIndex n.length (index n) = i := by
  have h1 : 2 ^ (i + 1).log2 ≤ i + 1 := Nat.log2_self_le (by omega)
  have h2 : i + 1 < 2 ^ ((i + 1).log2 + 1) := Nat.lt_log2_self
  have hl : (i + 1).log2 < d + 1 := (Nat.log2_lt (by omega)).mpr (by omega)
  have hx : i - (2 ^ (i + 1).log2 - 1) < 2 ^ (i + 1).log2 := by
    rw [Nat.pow_succ] at h2
    omega
  refine ⟨path (i + 1).log2 (i - (2 ^ (i + 1).log2 - 1)), ?_, ?_⟩
  · rw [length_path]
    omega
  · rw [length_path, index_path hx, bitIndex_eq (by omega)]
    omega

/-! ## 2. Nodes and addresses -/

namespace PoolCfg

variable (c : PoolCfg)

/-- The level of the smallest blocks. -/
def depth : Nat := c.maxLevels - 1

theorem sizeLog2_eq : c.sizeLog2 = c.depth + 5 := by
  have h1 := c.levels_eq
  have h2 := c.levels_pos
  rw [minBlkSizeLog2] at h1
  rw [depth]
  omega

theorem depth_lt : c.depth < 27 := by
  have := c.sizeLog2_eq
  have := c.small
  omega

/-- The address of a block. -/
def addr (n : Path) : Nat := c.start + offset c.sizeLog2 n

variable {c}

theorem length_lt {n : Path} (h : n.length ≤ c.depth) : n.length < 32 := by
  have := c.depth_lt
  omega

theorem length_le {n : Path} (h : n.length ≤ c.depth) : n.length ≤ c.sizeLog2 := by
  have := c.sizeLog2_eq
  omega

theorem power2_level (n : Path) :
    power2 (c.sizeLog2 - n.length) = blockSize c.sizeLog2 n := by
  have := c.small
  rw [power2_eq (by omega), blockSize]

theorem size_div_power2 {n : Path} (h : n.length ≤ c.depth) :
    c.size / power2 n.length = blockSize c.sizeLog2 n := by
  rw [power2_eq (length_lt h), c.size_eq, Nat.pow_div (length_le h) (by decide), blockSize]

/-- Blocks on different branches have different addresses. -/
theorem addr_ne {n m : Path} (hn : n.length ≤ c.depth) (hm : m.length ≤ c.depth)
    (h1 : ¬ n <:+ m) (h2 : ¬ m <:+ n) : c.addr n ≠ c.addr m := by
  have := offset_ne (length_le hn) (length_le hm) h1 h2
  rw [addr, addr]
  omega

theorem addr_inj {n m : Path} (hl : n.length = m.length) (h : c.addr n = c.addr m) : n = m := by
  have h1 : offset c.sizeLog2 n = offset c.sizeLog2 m := by rw [addr, addr] at h; omega
  rw [offset, offset, blockSize, blockSize, hl] at h1
  exact eq_of_index_eq hl (Nat.eq_of_mul_eq_mul_right (Nat.two_pow_pos _) h1)

theorem nodeOffset_addr {n : Path} (h : n.length ≤ c.depth) :
    nodeOffset c (c.addr n) / blockSize c.sizeLog2 n = index n := by
  have hS := c.sizeLog2_eq
  have hb : blockSize c.sizeLog2 n = 8 * 2 ^ (c.sizeLog2 - n.length - 3) := by
    rw [blockSize, show (8 : Nat) = 2 ^ 3 from rfl, ← Nat.pow_add]
    congr 1
    omega
  have ho : nodeOffset c (c.addr n) = offset c.sizeLog2 n := by
    rw [nodeOffset, addr, Nat.add_sub_cancel_left, offset, hb, Nat.mul_left_comm,
      Nat.mul_div_cancel_left _ (by decide : 0 < 8), Nat.mul_comm _ 8]
  rw [ho, offset, Nat.mul_div_cancel _ (blockSize_pos _ _)]

theorem addr_left {n : Path} (h : n.length < c.depth) : c.addr (false :: n) = c.addr n := by
  have := c.sizeLog2_eq
  rw [addr, offset_left (by omega), addr]

theorem addr_right {n : Path} (h : n.length < c.depth) :
    c.addr (true :: n) = c.addr n + c.size / power2 (n.length + 1) := by
  have hl : (true :: n).length ≤ c.depth := h
  have := size_div_power2 hl
  rw [List.length_cons] at this
  rw [this, addr, offset_child (length_le hl), addr, Bool.toNat_true]
  omega

theorem buddyAddress_eq {b : Bool} {n : Path} (h : (b :: n).length ≤ c.depth) :
    c.getBuddyAddress (c.addr (b :: n)) (index (b :: n)) (b :: n).length =
      c.addr ((!b) :: n) := by
  have h' : ((!b) :: n).length ≤ c.depth := h
  have hs : blockSize c.sizeLog2 ((!b) :: n) = blockSize c.sizeLog2 (b :: n) := rfl
  rw [getBuddyAddress, power2_level, index_mod_two, addr, addr, offset_child (length_le h),
    offset_child (length_le h'), hs]
  cases b
  · simp only [Bool.toNat_false, Bool.not_false, Bool.toNat_true, if_true]; omega
  · simp only [Bool.toNat_true, Bool.not_true, Bool.toNat_false, Nat.one_ne_zero, if_false]; omega

theorem getAddress_eq {b : Bool} {n : Path} (h : (b :: n).length ≤ c.depth) :
    c.getAddress (c.addr (b :: n)) (index (b :: n)) (b :: n).length = c.addr n := by
  rw [getAddress, power2_level, index_mod_two, addr, addr, offset_child (length_le h)]
  omega

theorem addr_root : c.addr [] = c.start := by
  rw [addr, offset, index]
  omega

end PoolCfg

end Rtx
