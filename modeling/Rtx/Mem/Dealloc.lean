/-
  File:      Rtx/Mem/Dealloc.lean
  Subject:   `k_mpool_dealloc` in one pool: which node it frees, and when it frees it properly.

  Merging removes each free buddy with `pop_block`, which does not see the last node of a list of
  several. `freesCleanly` is the condition, read off the pool BEFORE the call, that no buddy on
  the way up is in that place; under it a dealloc takes exactly its node out of the allocated
  ones, and the pool keeps its invariant (`PoolInv.dealloc_spec`). `allocatedAt` reads off the same
  bits which addresses are those of the blocks handed out (`PoolInv.allocatedAt_iff`).
-/
import Rtx.Mem.Rep

namespace Rtx

open BlockTree

/-! ## 1. The condition -/

namespace Pool

/-- While the buddy of the block at `address` is free, it is not the last of several nodes of its
    free list; and the same one level up. `x` is the index of the block in its level. -/
def mergesCleanly (c : PoolCfg) (p : Pool) : (level x address : Nat) → Bool
  | 0, _, _ => true
  | level + 1, x, address =>
      p.check (bitIndex (level + 1) (x ^^^ 1)) ||
        (((p.freeList (level + 1)).head == some (c.getBuddyAddress address x (level + 1)) ||
            (p.mem (c.getBuddyAddress address x (level + 1))).next != none) &&
          p.mergesCleanly c level (x / 2) (c.getAddress address x (level + 1)))

/-- The condition for `k_mpool_dealloc(ptr)`: its block, found as the code finds it, merges
    cleanly. -/
def freesCleanly (c : PoolCfg) (p : Pool) (ptr : Nat) : Bool :=
  let (_, level, x) := p.findBlock (c.maxLevels - 1) ((ptr - c.start) / minBlkSize)
  p.mergesCleanly c level x ptr

/-- The block that the code finds at `ptr` starts there, and its upper half is not in use: it was
    handed out whole and not freed since. (The search found no mark in the lower half.) -/
def allocatedAt (c : PoolCfg) (p : Pool) (ptr : Nat) : Bool :=
  let (found, level, x) := p.findBlock (c.maxLevels - 1) ((ptr - c.start) / minBlkSize)
  decide (c.start ≤ ptr ∧ ptr ≤ c.stop) && found && ptr == c.start + x * 2 ^ (c.sizeLog2 - level) &&
    (level == c.maxLevels - 1 || !p.check (bitIndex (level + 1) (2 * x + 1)))

end Pool

/-- The condition at a node of the tree. -/
def CleanAt (c : PoolCfg) (p : Pool) (n : Path) : Prop :=
  p.mergesCleanly c n.length (index n) (c.addr n) = true

namespace PoolInv

variable {c : PoolCfg} {X : Nat → Bool} {A : Set Path} {p p' : Pool} {n m : Path} {b : Bool}

theorem cleanAt_cons (hd : (b :: n).length ≤ c.depth) (h : CleanAt c p (b :: n)) :
    p.bit ((!b) :: n) = true ∨
      (((p.freeList (n.length + 1)).head = some (c.addr ((!b) :: n)) ∨
          (p.mem (c.addr ((!b) :: n))).next ≠ none) ∧ CleanAt c p n) := by
  have h1 := PoolCfg.buddyAddress_eq hd
  have h2 := PoolCfg.getAddress_eq hd
  rw [List.length_cons] at h1 h2
  unfold CleanAt at h
  rw [List.length_cons, Pool.mergesCleanly, h1, h2, index_sibling, index_div_two] at h
  simp only [Bool.or_eq_true, Bool.and_eq_true, beq_iff_eq, bne_iff_ne] at h
  exact h

theorem cleanAt_cons_of (hd : (b :: n).length ≤ c.depth)
    (h : p.bit ((!b) :: n) = true ∨
      (((p.freeList (n.length + 1)).head = some (c.addr ((!b) :: n)) ∨
          (p.mem (c.addr ((!b) :: n))).next ≠ none) ∧ CleanAt c p n)) : CleanAt c p (b :: n) := by
  have h1 := PoolCfg.buddyAddress_eq hd
  have h2 := PoolCfg.getAddress_eq hd
  rw [List.length_cons] at h1 h2
  unfold CleanAt
  rw [List.length_cons, Pool.mergesCleanly, h1, h2, index_sibling, index_div_two]
  simp only [Bool.or_eq_true, Bool.and_eq_true, beq_iff_eq, bne_iff_ne]
  exact h

/-- The condition depends only on the bits, the list heads and the free nodes at and above the
    level of the block. -/
theorem CleanAt.congr (hA : Marked A n) (hd : n.length ≤ c.depth)
    (hbit : ∀ m, m ≠ [] → m.length ≤ n.length → (p.bit m = true ↔ Marked A m))
    (hbit' : ∀ m, m ≠ [] → m.length ≤ n.length → (p'.bit m = true ↔ Marked A m))
    (hhead : ∀ l ≤ n.length, (p'.freeList l).head = (p.freeList l).head)
    (hmem : ∀ m, Vacant A m → m.length ≤ n.length → p'.mem (c.addr m) = p.mem (c.addr m))
    (h : CleanAt c p n) : CleanAt c p' n := by
  induction n with
  | nil => rfl
  | cons b n ih =>
      refine cleanAt_cons_of hd ?_
      rcases cleanAt_cons hd h with h1 | ⟨h1, h2⟩
      · left
        rw [hbit' _ (by simp) (by simp), ← hbit _ (by simp) (by simp)]
        exact h1
      · by_cases hs : Marked A ((!b) :: n)
        · exact Or.inl ((hbit' _ (by simp) (by simp)).mpr hs)
        · right
          have hle : ∀ {k}, k ≤ n.length → k ≤ (b :: n).length := fun hk => by
            rw [List.length_cons]; omega
          refine ⟨?_, ih (hA.of_suffix (List.suffix_cons b n)) (Nat.le_of_succ_le hd)
            (fun m h0 hm => hbit m h0 (hle hm)) (fun m h0 hm => hbit' m h0 (hle hm))
            (fun l hl => hhead l (hle hl)) (fun m hv hm => hmem m hv (hle hm)) h2⟩
          rw [hhead _ (by simp), hmem _ (vacant_sibling hA hs) (by simp)]
          exact h1

/-! ## 2. Finding the block -/

/-- The upward search from the smallest block at an allocated node's start ends at the node. -/
theorem findBlock_leftmost (h : PoolInv c X A p) (hn : n ∈ A) (k : Nat)
    (hd : (leftmost k n).length ≤ c.depth) :
    p.findBlock (leftmost k n).length (index (leftmost k n)) = (true, n.length, index n) := by
  induction k with
  | zero =>
      have hb : p.bit n = true := by
        cases n with
        | nil => exact h.rep.root (marked_of_mem hn)
        | cons b m => exact (h.bit_iff (by simp) (h.depth _ hn)).mpr (marked_of_mem hn)
      rw [show leftmost 0 n = n from rfl]
      cases n with
      | nil =>
          unfold Pool.findBlock
          exact congrArg (fun b => (b, 0, 0)) hb
      | cons b m =>
          rw [List.length_cons]
          unfold Pool.findBlock
          rw [Pool.check_child, if_pos hb]
  | succ k ih =>
      have e : leftmost (k + 1) n = false :: leftmost k n := rfl
      rw [e] at hd ⊢
      -- nothing is allocated strictly below an allocated node
      have hb : ¬ p.bit (false :: leftmost k n) = true := by
        rw [h.bit_iff (by simp) hd]
        rintro ⟨a, ha, hs⟩
        have hna := (suffix_leftmost k n).trans ((List.suffix_cons _ _).trans hs)
        have e := h.antichain n hn a ha hna
        have := hs.length_le
        rw [← e, List.length_cons, leftmost, List.length_append] at this
        omega
      rw [List.length_cons]
      unfold Pool.findBlock
      rw [Pool.check_child, if_neg hb, index_div_two]
      exact ih (Nat.le_of_succ_le hd)

/-- The upward search finds no block exactly when no node over its leaf has its bit set. -/
theorem findBlock_none_iff (p : Pool) (n : Path) :
    (p.findBlock n.length (index n)).1 = false ↔ ∀ m, m <:+ n → p.bit m = false := by
  induction n with
  | nil =>
      simp only [List.suffix_nil, forall_eq]
      exact Iff.rfl
  | cons b n ih =>
      rw [List.length_cons, Pool.findBlock, Pool.check_child, index_div_two]
      by_cases hb : p.bit (b :: n) = true
      · rw [if_pos hb]
        refine ⟨fun h => absurd h (by simp), fun h => ?_⟩
        rw [h _ (List.suffix_refl _)] at hb
        cases hb
      · rw [if_neg hb, ih]
        refine ⟨fun h m hm => ?_, fun h m hm => h m (hm.trans (List.suffix_cons b n))⟩
        rcases List.suffix_cons_iff.mp hm with rfl | hm
        · exact Bool.eq_false_iff.mpr hb
        · exact h m hm

theorem findBlock_addr (h : PoolInv c X A p) (hn : n ∈ A) :
    p.findBlock (c.maxLevels - 1) ((c.addr n - c.start) / minBlkSize) =
      (true, n.length, index n) := by
  have hd := h.depth n hn
  have hS := c.sizeLog2_eq
  have hl : (leftmost (c.depth - n.length) n).length = c.depth := by
    rw [leftmost, List.length_append, List.length_replicate]
    omega
  have := h.findBlock_leftmost hn (c.depth - n.length) (Nat.le_of_eq hl)
  rw [hl] at this
  have ho : (c.addr n - c.start) / minBlkSize = index (leftmost (c.depth - n.length) n) := by
    have hp : 2 ^ (c.sizeLog2 - n.length) = 2 ^ (c.depth - n.length) * 32 := by
      rw [show c.sizeLog2 - n.length = (c.depth - n.length) + 5 by omega, Nat.pow_add]
    rw [PoolCfg.addr, Nat.add_sub_cancel_left, offset, blockSize, hp, index_leftmost, minBlkSize,
      ← Nat.mul_assoc, Nat.mul_div_cancel _ (by decide)]
  rw [ho]
  exact this

theorem freesCleanly_addr (h : PoolInv c X A p) (hn : n ∈ A) :
    p.freesCleanly c (c.addr n) = true ↔ CleanAt c p n := by
  rw [Pool.freesCleanly, h.findBlock_addr hn]
  rfl

/-! ## 3. Merging -/

/-- A round of the merging loop at a node whose buddy's bit is set. -/
theorem coalesce_used (hs : (p.unmark (bitIndex (b :: n).length (index (b :: n)))).bit
      ((!b) :: n) = true) :
    Pool.coalesce c p (c.addr (b :: n)) (b :: n).length (index (b :: n)) =
      some (p.unmark (bitIndex (b :: n).length (index (b :: n))), c.addr (b :: n),
        (b :: n).length) := by
  generalize hq : p.unmark (bitIndex (b :: n).length (index (b :: n))) = q at hs ⊢
  rw [List.length_cons] at hq ⊢
  unfold Pool.coalesce
  simp only [hq, index_sibling]
  rw [Pool.check_child, if_pos hs]

/-- A round of the merging loop at a node whose buddy is free. -/
theorem coalesce_free (hd : (b :: n).length ≤ c.depth)
    (hs : ¬ (p.unmark (bitIndex (b :: n).length (index (b :: n)))).bit ((!b) :: n) = true)
    (hpop : (p.unmark (bitIndex (b :: n).length (index (b :: n)))).popBlock ((!b) :: n).length
      (c.addr ((!b) :: n)) = some p') :
    Pool.coalesce c p (c.addr (b :: n)) (b :: n).length (index (b :: n)) =
      Pool.coalesce c p' (c.addr n) n.length (index n) := by
  generalize hq : p.unmark (bitIndex (b :: n).length (index (b :: n))) = q at hs hpop
  have e1 := PoolCfg.buddyAddress_eq hd
  have e2 := PoolCfg.getAddress_eq hd
  rw [List.length_cons] at hq e1 e2 hpop ⊢
  rw [Pool.coalesce]
  simp only [hq, index_sibling, index_div_two, e1, e2]
  rw [Pool.check_child, if_neg hs]
  simp only [hpop, Option.bind_eq_bind, Option.bind_some]

/-- The merging loop and the final put free the node; the root's bit is left as it was. -/
theorem coalesce_spec (h : PoolInv c X A p) (hn : n ∈ A) (hclean : CleanAt c p n) :
    ∃ q m, Pool.coalesce c p (c.addr n) n.length (index n) = some (q, c.addr m, m.length) ∧
      PoolInv c X (A \ {n}) (q.putFreed (c.addr m) m.length) ∧
      (q.putFreed (c.addr m) m.length).bit [] = p.bit [] := by
  induction n generalizing A p with
  | nil =>
      have hap : ∀ m, Vacant A m → ¬ m <:+ [] ∧ ¬ [] <:+ m := fun m hm =>
        (hm.apart h.antichain hn).symm
      refine ⟨p, [], rfl, ?_, ?_⟩
      · refine h.release hn (fun b m e => absurd e (by simp)) ?_
        refine (h.rep.putFreed (Nat.zero_le _) hap).congr (fun m h0 => ?_) (fun hm => hm.1)
          (fun _ => Iff.rfl)
        exact and_iff_left h0
      · exact Pool.bit_congr (Pool.putFreed_bitTree _ _ _) _
  | cons b n ih =>
      have hd := h.depth _ hn
      have hd' : ((!b) :: n).length ≤ c.depth := hd
      have h1 := h.rep.unmark hd
      have hsib := (h1.bit ((!b) :: n) (by simp) hd').trans
        (and_iff_left (sibling_ne b n))
      have hroot : (p.unmark (bitIndex (b :: n).length (index (b :: n)))).bit [] = p.bit [] := by
        rw [Pool.bit_unmark _ hd (Nat.zero_le _)]
        simp
      by_cases hs : Marked A ((!b) :: n)
      · -- the buddy is in use: the block goes back to its own level
        refine ⟨_, b :: n, coalesce_used (hsib.mpr hs), ?_, ?_⟩
        · refine h.release hn (fun b' m e => ?_) (h1.putFreed hd fun m hm =>
            (hm.apart h.antichain hn).symm)
          obtain ⟨rfl, rfl⟩ := List.cons.inj e
          exact hs
        · rw [← hroot]
          exact Pool.bit_congr (Pool.putFreed_bitTree _ _ _) _
      · -- the buddy is free: it leaves its list and the parent is tried
        have hv := vacant_sibling (marked_of_mem hn) hs
        have hbit : ¬ p.bit ((!b) :: n) = true := by rwa [h.bit_iff (by simp) hd']
        obtain ⟨hpos, hcl⟩ := (cleanAt_cons hd hclean).resolve_left hbit
        obtain ⟨q', h2, h3, h4, h5, h6⟩ := h1.popBlock hv hd' (by
          rw [List.length_cons]
          exact hpos)
        have hA := h.merge hn hs h3
        have hmem : n ∈ insert n (A \ {b :: n}) := Set.mem_insert _ _
        have hcl' : CleanAt c q' n := by
          refine CleanAt.congr (p := p) (marked_of_mem hmem) (Nat.le_of_succ_le hd)
            (fun m h0 hm => ?_) (fun m h0 hm => hA.bit_iff h0 ?_) (fun l hl => ?_)
            (fun m hm hml => ?_) hcl
          · rw [h.bit_iff h0 (by rw [List.length_cons] at hd; omega),
              h.antichain.marked_merge hn hs, and_iff_left]
            rintro rfl
            simp at hm
          · rw [List.length_cons] at hd; omega
          · rw [h5 l (by rw [List.length_cons]; omega), Pool.unmark_freeList]
          · rw [h6 m ((h.antichain.vacant_merge hn hs).mp hm).1
              (by rw [List.length_cons]; omega) (by rw [List.length_cons] at hd; omega),
              Pool.unmark_mem]
        obtain ⟨q'', m, h7, h8, h9⟩ := ih hA hmem hcl'
        have hAn : insert n (A \ {b :: n}) \ {n} = A \ {b :: n} := by
          refine Set.insert_sdiff_self_of_notMem fun hm => ?_
          exact not_cons_suffix b n
            ((h.antichain n hm.1 _ hn (List.suffix_cons b n)) ▸ List.suffix_refl _)
        rw [hAn] at h8
        refine ⟨q'', m, ?_, h8, ?_⟩
        · rw [coalesce_free hd (fun hx => hs (hsib.mp hx)) h2]
          exact h7
        · rw [h9, ← hroot]
          exact Pool.bit_congr h4 _

/-- Freeing the whole pool. -/
theorem putRoot_spec (h : PoolInv c X A p) (hn : [] ∈ A) :
    PoolInv c X (A \ {[]}) (Pool.putRoot c (p.unmark (bitIndex 0 (index [])))) ∧
      (Pool.putRoot c (p.unmark (bitIndex 0 (index [])))).bit [] = false := by
  have hA : ∀ a ∈ A, a = [] := fun a ha => (h.antichain [] hn a ha List.nil_suffix).symm
  have hbit : ∀ m : Path, m.length ≤ c.depth →
      (Pool.putRoot c (p.unmark (bitIndex 0 (index [])))).bit m = (!decide (m = []) && p.bit m) :=
    fun m hm => (Pool.bit_congr rfl m).trans (Pool.bit_unmark p (n := []) (Nat.zero_le _) hm)
  have hvac : ∀ m, ¬ Vacant A m := fun m hm => (hm.apart h.antichain hn).1 List.nil_suffix
  obtain ⟨Ls, hs, hLs⟩ := h.rep.shows
  have hno : ∀ l ≤ c.depth, Ls l = [] := fun l hl =>
    List.eq_nil_iff_forall_not_mem.mpr fun m hm => by
      have hml := hs.level l hl m hm
      subst hml
      exact hvac m ((hLs m hl).mp hm)
  have h1 := (hs.unmark (n := []) (Nat.zero_le _)).putRoot hno
  refine ⟨h.release hn (fun b m e => absurd e (by simp)) (h1.rep ?_ fun m hm => ?_), ?_⟩
  · intro m m' hm hm' _
    rw [hm.resolve_left (hvac m), hm'.resolve_left (hvac m')]
  · cases m with
    | nil => simp
    | cons b m =>
        rw [Function.update_of_ne (by simp), hno _ hm]
        simp [hvac]
  · rw [hbit [] (Nat.zero_le _)]
    simp

/-! ## 4. `k_mpool_dealloc` -/

theorem addr_inside (h : PoolInv c X A p) (hn : n ∈ A) : c.start ≤ c.addr n ∧ c.addr n ≤ c.stop := by
  have h1 := offset_add_blockSize_le (PoolCfg.length_le (h.depth n hn))
  have h2 := blockSize_pos c.sizeLog2 n
  have h3 := c.stop_eq
  have h4 := c.size_eq
  rw [PoolCfg.addr]
  omega

/-- Dealloc of the whole pool. -/
theorem dealloc_root (h : PoolInv c X A p) (hn : [] ∈ A) :
    p.dealloc c (some (c.addr [])) =
      some (.ok (Pool.putRoot c (p.unmark (bitIndex 0 (index []))))) := by
  unfold Pool.dealloc
  simp only [if_pos (h.addr_inside hn), h.findBlock_addr hn]
  rfl

/-- Dealloc of a smaller block merges and puts back. -/
theorem dealloc_node (h : PoolInv c X A p) (hn : b :: n ∈ A) :
    p.dealloc c (some (c.addr (b :: n))) =
      (Pool.coalesce c p (c.addr (b :: n)) (b :: n).length (index (b :: n))).bind
        fun r => some (.ok (r.1.putFreed r.2.1 r.2.2)) := by
  unfold Pool.dealloc
  simp only [if_pos (h.addr_inside hn), h.findBlock_addr hn]
  rfl

/-- **`k_mpool_dealloc` of a live block that merges cleanly** returns `RTX_OK` and frees exactly
    the block's node. The root's bit is cleared only when the block is the whole pool. -/
theorem dealloc_spec (h : PoolInv c X A p) (hn : n ∈ A)
    (hclean : p.freesCleanly c (c.addr n) = true) :
    ∃ q, p.dealloc c (some (c.addr n)) = some (.ok q) ∧ PoolInv c X (A \ {n}) q ∧
      q.bit [] = (!decide (n = []) && p.bit []) := by
  cases n with
  | nil =>
      obtain ⟨h1, h2⟩ := h.putRoot_spec hn
      exact ⟨_, h.dealloc_root hn, h1, by rw [h2]; simp⟩
  | cons b m =>
      obtain ⟨q, m', h1, h2, h3⟩ := h.coalesce_spec hn ((h.freesCleanly_addr hn).mp hclean)
      refine ⟨q.putFreed (c.addr m') m'.length, ?_, h2, by rw [h3]; simp⟩
      rw [h.dealloc_node hn, h1]
      rfl

end PoolInv

/-! ## 5. Frees that find no block -/

/-- No block that contains the address has its bit set. -/
def Unmarked (c : PoolCfg) (p : Pool) (a : Nat) : Prop :=
  ∀ n : Path, n.length ≤ c.depth → c.addr n ≤ a → a < c.addr n + blockSize c.sizeLog2 n →
    p.bit n = false

section Unmarked

variable {c : PoolCfg} {p : Pool} {a : Nat}

/-- The index of the smallest block at an address of the pool. -/
theorem index_bound (h : c.start ≤ a ∧ a ≤ c.stop) : (a - c.start) / minBlkSize < 2 ^ c.depth := by
  have h1 := c.stop_eq
  have h2 := c.size_eq
  rw [c.sizeLog2_eq, Nat.pow_add] at h2
  rw [Nat.div_lt_iff_lt_mul (by decide)]
  change a - c.start < 2 ^ c.depth * 2 ^ 5
  omega

/-- The blocks that contain an address of the pool are those over its smallest block. -/
theorem contains_iff (h : c.start ≤ a ∧ a ≤ c.stop) {n : Path} (hn : n.length ≤ c.depth) :
    (c.addr n ≤ a ∧ a < c.addr n + blockSize c.sizeLog2 n) ↔
      n <:+ path c.depth ((a - c.start) / minBlkSize) := by
  have hS := c.sizeLog2_eq
  have hl := length_path c.depth ((a - c.start) / minBlkSize)
  have hi := index_path (index_bound h)
  generalize path c.depth ((a - c.start) / minBlkSize) = f at hl hi
  -- the smallest block itself contains the address
  have hsz : blockSize c.sizeLog2 f = 32 := by
    rw [blockSize, hl, hS, Nat.add_sub_cancel_left]
    rfl
  have hf : c.addr f ≤ a ∧ a < c.addr f + blockSize c.sizeLog2 f := by
    rw [PoolCfg.addr, offset, hsz, hi, minBlkSize]
    omega
  have hfd := PoolCfg.length_le (Nat.le_of_eq hl)
  rw [PoolCfg.addr] at hf ⊢
  constructor
  · intro hc
    by_contra hns
    have hns' : ¬ f <:+ n := fun hs => by
      have := hs.eq_of_length_le (by omega)
      exact hns (this ▸ List.suffix_refl f)
    have := apart_of_not_suffix (PoolCfg.length_le hn) hfd hns hns'
    omega
  · intro hs
    have := block_subset hfd hs
    omega

/-- **Which frees are refused**: NULL, an address outside the pool, and an address in no block
    whose bit is set. A refused free changes nothing. -/
theorem dealloc_error_iff (ptr : Option Nat) :
    (∃ e, p.dealloc c ptr = some (.error e)) ↔
      ∀ a ∈ ptr, c.start ≤ a ∧ a ≤ c.stop → Unmarked c p a := by
  cases ptr with
  | none => exact ⟨fun _ a ha => absurd ha (by simp), fun _ => ⟨none, rfl⟩⟩
  | some a =>
      simp only [Option.mem_def, Option.some.injEq, forall_eq']
      by_cases hin : c.start ≤ a ∧ a ≤ c.stop
      · have hU : Unmarked c p a ↔ (p.findBlock c.depth ((a - c.start) / minBlkSize)).1 = false := by
          have h1 := PoolInv.findBlock_none_iff p (path c.depth ((a - c.start) / minBlkSize))
          rw [length_path, index_path (index_bound hin)] at h1
          rw [h1]
          constructor
          · intro h n hn
            have hd := hn.length_le.trans_eq (length_path _ _)
            obtain ⟨h2, h3⟩ := (contains_iff hin hd).mpr hn
            exact h n hd h2 h3
          · intro h n hd h2 h3
            exact h n ((contains_iff hin hd).mp ⟨h2, h3⟩)
        rw [hU]
        simp only [Pool.dealloc, hin, and_self, if_true, forall_const]
        rw [show c.maxLevels - 1 = c.depth from rfl]
        obtain ⟨b, l, x⟩ := p.findBlock c.depth ((a - c.start) / minBlkSize)
        cases b with
        | false => exact ⟨fun _ => rfl, fun _ => ⟨none, rfl⟩⟩
        | true =>
            refine ⟨fun ⟨e, he⟩ => ?_, fun h => absurd h (by simp)⟩
            cases l with
            | zero => cases he
            | succ l =>
                cases hc : Pool.coalesce c p a (l + 1) x with
                | none => simp [hc] at he
                | some r => simp [hc] at he
      · simp only [Pool.dealloc, if_neg hin]
        exact ⟨fun _ h => absurd h hin, fun _ => ⟨_, rfl⟩⟩

/-! ## 6. The blocks handed out -/

/-- The upward search ends at the lowest node over its leaf whose bit is set, or at the root. -/
theorem PoolInv.findBlock_spec (p : Pool) (f : Path) : ∃ m, m <:+ f ∧
    p.findBlock f.length (index f) = (p.bit m, m.length, index m) ∧
    ∀ b, (b :: m) <:+ f → p.bit (b :: m) = false := by
  induction f with
  | nil => exact ⟨[], List.suffix_refl _, rfl, fun b hb => absurd hb.length_le (by simp)⟩
  | cons b f ih =>
      rw [List.length_cons, Pool.findBlock, Pool.check_child, index_div_two]
      by_cases hb : p.bit (b :: f) = true
      · refine ⟨b :: f, List.suffix_refl _, ?_, fun b' hb' => absurd hb'.length_le (by simp)⟩
        rw [if_pos hb, hb]
        rfl
      · obtain ⟨m, h1, h2, h3⟩ := ih
        refine ⟨m, h1.trans (List.suffix_cons b f), by rw [if_neg hb, h2], fun b' hb' => ?_⟩
        rcases List.suffix_cons_iff.mp hb' with e | hb'
        · rw [e]
          exact Bool.eq_false_iff.mpr hb
        · exact h3 b' hb'

theorem allocatedAt_addr {X : Nat → Bool} {A : Set Path} {n : Path} (h : PoolInv c X A p)
    (hn : n ∈ A) : p.allocatedAt c (c.addr n) = true := by
  have hd := h.depth n hn
  unfold Pool.allocatedAt
  simp only [h.findBlock_addr hn, Bool.and_true, Bool.and_eq_true, decide_eq_true_eq, beq_iff_eq,
    Bool.or_eq_true, Bool.not_eq_true']
  refine ⟨⟨h.addr_inside hn, rfl⟩, ?_⟩
  by_cases hl : n.length = c.depth
  · exact Or.inl hl
  · right
    -- nothing is allocated below an allocated node
    rw [show 2 * index n + 1 = index (true :: n) from rfl]
    apply Bool.eq_false_iff.mpr
    intro hb
    rw [Pool.check_child, h.bit_iff (by simp) (by rw [List.length_cons]; omega)] at hb
    exact h.antichain.not_split hn (Split.of_child hb)

/-- **Which addresses are those of blocks handed out**, as long as a block smaller than the pool is
    out: merging up to the root leaves the root's bit set, and then the empty pool looks taken. -/
theorem PoolInv.allocatedAt_iff {X : Nat → Bool} {A : Set Path} (h : PoolInv c X A p)
    (hne : ∃ n ∈ A, n ≠ []) : p.allocatedAt c a = true ↔ ∃ n ∈ A, c.addr n = a := by
  constructor
  · intro ha
    unfold Pool.allocatedAt at ha
    have hin : c.start ≤ a ∧ a ≤ c.stop := by
      simp only [Bool.and_eq_true, decide_eq_true_eq] at ha
      exact ha.1.1.1
    obtain ⟨m, h1, h2, h3⟩ := PoolInv.findBlock_spec p (path c.depth ((a - c.start) / minBlkSize))
    rw [length_path, index_path (index_bound hin)] at h2
    rw [show c.maxLevels - 1 = c.depth from rfl, h2] at ha
    simp only [Bool.and_eq_true, decide_eq_true_eq, beq_iff_eq, Bool.or_eq_true,
      Bool.not_eq_true'] at ha
    obtain ⟨⟨⟨-, hbit⟩, haddr⟩, hhalf⟩ := ha
    have hd : m.length ≤ c.depth := h1.length_le.trans_eq (length_path _ _)
    refine ⟨m, ?_, haddr.symm⟩
    have hm : Marked A m := by
      cases m with
      | nil =>
          obtain ⟨n, hn, -⟩ := hne
          exact ⟨n, hn, List.nil_suffix⟩
      | cons b m => exact (h.bit_iff (by simp) hd).mp hbit
    rcases marked_iff.mp hm with hm | hm
    · exact hm
    · exfalso
      obtain ⟨b, hb⟩ := split_iff_child.mp hm
      have hbd := h.marked_depth hb
      cases b with
      | true =>
          rcases hhalf with hl | hc
          · rw [List.length_cons] at hbd
            omega
          · rw [show 2 * index m + 1 = index (true :: m) from rfl, Pool.check_child,
              (h.bit_iff (by simp) hbd).mpr hb] at hc
            cases hc
      | false =>
          -- the lower half holds the address too, and the search passed it
          have hs : (false :: m) <:+ path c.depth ((a - c.start) / minBlkSize) := by
            apply (contains_iff hin hbd).mp
            rw [PoolCfg.addr_left (by rw [List.length_cons] at hbd; omega)]
            have := blockSize_pos c.sizeLog2 (false :: m)
            rw [PoolCfg.addr, offset, blockSize]
            omega
          have := h3 false hs
          rw [(h.bit_iff (by simp) hbd).mpr hb] at this
          cases this
  · rintro ⟨n, hn, rfl⟩
    exact allocatedAt_addr h hn

end Unmarked

end Rtx
