/-
  File:      Rtx/Mem/Alloc.lean
  Subject:   `k_mpool_alloc` in one pool: which node it claims, and that it returns.

  The splitting loop takes the head of a level, puts its two halves in the list of the next level
  and goes on there; together with the final take this trades the taken node for its left child
  once a round (`splitDown_spec`). So the block handed out is the leftmost one below the node
  found by the search.
-/
import Mathlib.Data.Nat.Log
import Rtx.Mem.Rep

namespace Rtx

open BlockTree

/-! ## 1. `LOG2` -/

theorem log2Loop_eq {val : Nat} (d fuel p : Nat) (hd : max p (Nat.clog 2 val) = p + d)
    (hf : d < fuel) (h31 : p + d ≤ 31) : log2Loop val fuel p (2 ^ p) = some (p + d) := by
  induction d generalizing fuel p with
  | zero =>
      obtain ⟨f, rfl⟩ : ∃ f, fuel = f + 1 := ⟨fuel - 1, by omega⟩
      have hle : val ≤ 2 ^ p := (Nat.clog_le_iff_le_pow Nat.one_lt_two).mp (by omega)
      unfold log2Loop
      rw [if_neg (by omega)]
      rfl
  | succ d ih =>
      obtain ⟨f, rfl⟩ : ∃ f, fuel = f + 1 := ⟨fuel - 1, by omega⟩
      have hlt : 2 ^ p < val := by
        by_contra hle
        have := (Nat.clog_le_iff_le_pow (x := val) (y := p) Nat.one_lt_two).mpr (by omega)
        omega
      have hpow : 2 ^ (p + 1) < 2 ^ 32 := Nat.pow_lt_pow_right Nat.one_lt_two (by omega)
      unfold log2Loop
      rw [if_pos hlt, ← Nat.pow_succ, Nat.mod_eq_of_lt hpow, ih f (p + 1) (by omega) (by omega)
        (by omega)]
      congr 1
      omega

/-- The exponent of the block size for a request. -/
def blockLog2 (size : Nat) : Nat := max minBlkSizeLog2 (Nat.clog 2 size)

theorem size_le_two_pow_blockLog2 (size : Nat) : size ≤ 2 ^ blockLog2 size :=
  (Nat.le_pow_clog Nat.one_lt_two size).trans
    (Nat.pow_le_pow_right (by decide) (Nat.le_max_right _ _))

theorem log2_eq {size : Nat} (h : size ≤ 2 ^ 31) : log2 size = some (blockLog2 size) := by
  have hc : Nat.clog 2 size ≤ 31 := (Nat.clog_le_iff_le_pow Nat.one_lt_two).mpr h
  have hm : blockLog2 size = minBlkSizeLog2 + (blockLog2 size - minBlkSizeLog2) := by
    rw [blockLog2]
    omega
  have h5 : minBlkSizeLog2 = 5 := rfl
  have hb : blockLog2 size ≤ 31 := by
    rw [blockLog2]
    omega
  rw [hm]
  exact log2Loop_eq (blockLog2 size - minBlkSizeLog2) 32 minBlkSizeLog2 hm (by omega) (by omega)

/-! ## 2. The search -/

namespace Pool

variable {p : Pool}

theorem findFree_none {l : Nat} (h : p.findFree l = none) :
    ∀ l' ≤ l, (p.freeList l').head = none := by
  induction l with
  | zero =>
      intro l' hl'
      obtain rfl : l' = 0 := by omega
      unfold findFree at h
      by_contra hne
      rw [if_neg hne] at h
      exact absurd h (by simp)
  | succ l ih =>
      intro l' hl'
      unfold findFree at h
      split at h
      · rename_i hnone
        rcases Nat.lt_or_ge l' (l + 1) with hlt | hge
        · exact ih h l' (by omega)
        · obtain rfl : l' = l + 1 := by omega
          exact hnone
      · exact absurd h (by simp)

/-- The search stops at the deepest level with a free block. -/
theorem findFree_some {l k : Nat} (h : p.findFree l = some k) :
    k ≤ l ∧ (∃ a, (p.freeList k).head = some a) ∧
      ∀ l', k < l' → l' ≤ l → (p.freeList l').head = none := by
  induction l with
  | zero =>
      unfold findFree at h
      split at h
      · exact absurd h (by simp)
      · rename_i hne
        obtain rfl : 0 = k := by simpa using h
        exact ⟨Nat.le_refl _, Option.ne_none_iff_exists'.mp hne, fun l' h1 h2 => by omega⟩
  | succ l ih =>
      unfold findFree at h
      split at h
      · rename_i hnone
        obtain ⟨h1, h2, h3⟩ := ih h
        refine ⟨by omega, h2, fun l' h4 h5 => ?_⟩
        rcases Nat.lt_or_ge l' (l + 1) with hlt | hge
        · exact h3 l' h4 (by omega)
        · obtain rfl : l' = l + 1 := by omega
          exact hnone
      · rename_i hne
        obtain rfl : l + 1 = k := by simpa using h
        exact ⟨Nat.le_refl _, Option.ne_none_iff_exists'.mp hne, fun l' h1 h2 => by omega⟩

end Pool

/-! ## 3. Taking and splitting -/

namespace PoolInv

variable {c : PoolCfg} {X : Nat → Bool} {A : Set Path} {p q : Pool} {n : Path}

/-- Taking the head of a list claims a vacant node. -/
theorem takeHead (h : PoolInv c X A p) {l a : Nat} (hl : l ≤ c.depth)
    (hh : (p.freeList l).head = some a) :
    ∃ n q, n.length = l ∧ c.addr n = a ∧ Vacant A n ∧
      p.takeHead c l (2 ^ (c.sizeLog2 - l)) = some (q, c.addr n) ∧ PoolInv c X (insert n A) q := by
  obtain ⟨n, rfl, hv, rfl⟩ := h.rep.head_addr hl hh
  obtain ⟨q, h1, h2⟩ := h.rep.takeHead hl hh
  exact ⟨n, q, rfl, rfl, hv, h1, h.claim hv h2⟩

/-- One round of the splitting loop: the halves of the node just taken are put in the list of the
    next level, and the next take claims the left one. -/
theorem splitRound (h : PoolInv c X A p) (hn : n ∈ A) (hd : n.length < c.depth)
    (hno : ∀ m, m.length = n.length + 1 → ¬ Vacant A m) :
    ∃ q, (p.putHalves c n.length (c.addr n)).takeHead c (n.length + 1)
        (2 ^ (c.sizeLog2 - (n.length + 1))) = some (q, c.addr (false :: n)) ∧
      PoolInv c X (insert (false :: n) (A \ {n})) q := by
  have h1 := h.rep.putHalves hd (fun m hm => (hm.apart h.antichain hn).symm) hno
  have hl : (false :: n).length ≤ c.depth := hd
  -- the left half is the head of the new list
  have hh : ((p.putHalves c n.length (c.addr n)).freeList (false :: n).length).head =
      some (c.addr (false :: n)) := by
    rw [PoolCfg.addr_left hd, List.length_cons]
    simp [Pool.putHalves, Pool.setHead_head]
  obtain ⟨q, h2, h3⟩ := h1.takeHead hl hh
  refine ⟨q, h2, h.split hn hd (h3.congr (fun m _ => Iff.rfl) id fun m => ?_)⟩
  have hleft : ¬ Vacant A (false :: n) := hno _ rfl
  constructor
  · intro hm
    rcases hm with hm | rfl
    · exact ⟨Or.inl hm, fun e => hleft (e ▸ hm)⟩
    · exact ⟨Or.inr ⟨true, rfl⟩, by simp⟩
  · intro hm
    obtain ⟨hm | ⟨b, rfl⟩, hne⟩ := hm
    · exact Or.inl hm
    · cases b
      · exact absurd rfl hne
      · exact Or.inr rfl

/-- **The splitting loop and the final take claim the leftmost block below the node found.** -/
theorem splitDown_spec (k : Nat) (hnA : n ∉ A) (hd : n.length + k ≤ c.depth)
    (htake : p.takeHead c n.length (2 ^ (c.sizeLog2 - n.length)) = some (q, c.addr n))
    (h : PoolInv c X (insert n A) q)
    (hno : ∀ m, n.length < m.length → m.length ≤ n.length + k → ¬ Vacant (insert n A) m) :
    ∃ p' q', Pool.splitDown c k p n.length = some p' ∧
      p'.takeHead c (n.length + k) (2 ^ (c.sizeLog2 - (n.length + k))) =
        some (q', c.addr (leftmost k n)) ∧
      PoolInv c X (insert (leftmost k n) A) q' := by
  induction k generalizing p q n with
  | zero => exact ⟨p, q, rfl, htake, h⟩
  | succ k ih =>
      have hn : n ∈ insert n A := Set.mem_insert n A
      obtain ⟨q', h1, h2⟩ := h.splitRound hn (by omega)
        (fun m hm => hno m (by omega) (by omega))
      have hA : insert n A \ {n} = A := Set.insert_sdiff_self_of_notMem hnA
      have hv : ∀ m, Vacant (insert (false :: n) A) m ↔
          Vacant (insert n A) m ∨ m = (!false) :: n := fun m => by
        have := h.antichain.vacant_split (b := false) (m := m) hn
        rwa [hA] at this
      have hfA : (false :: n) ∉ A := fun hm =>
        h.antichain.not_split hn ⟨_, Set.mem_insert_of_mem _ hm, List.suffix_cons _ _, by simp⟩
      rw [hA] at h2
      have hrec := ih (n := false :: n) hfA (by rw [List.length_cons]; omega) h1 h2
        (fun m hm hm' => by
          rw [List.length_cons] at hm hm'
          rw [hv]
          intro hx
          rcases hx with hx | rfl
          · exact hno m (by omega) (by omega) hx
          · simp at hm)
      obtain ⟨p', q'', h3, h4, h5⟩ := hrec
      have e : leftmost k (false :: n) = leftmost (k + 1) n := by
        rw [leftmost, leftmost, List.replicate_succ', List.append_assoc]
        rfl
      have el : (false :: n).length + k = n.length + (k + 1) := by rw [List.length_cons]; omega
      rw [e, el] at h4
      rw [e] at h5
      refine ⟨p', q'', ?_, h4, h5⟩
      have hp2 : power2 (c.sizeLog2 - n.length) = 2 ^ (c.sizeLog2 - n.length) :=
        PoolCfg.power2_level n
      unfold Pool.splitDown
      simp only [hp2, htake, Option.bind_eq_bind, Option.bind_some]
      exact h3

end PoolInv

/-! ## 4. `k_mpool_alloc` -/

/-- What was served was asked for, and fits in the pool. -/
theorem Pool.size_of_alloc {c : PoolCfg} {p : Pool} {size : Nat} {r : Pool × Nat}
    (h : p.alloc c size = some (.ok r)) : size ≠ 0 ∧ size ≤ c.size := by
  have h0 : size ≠ 0 := fun e => by
    rw [Pool.alloc, if_pos e] at h
    cases h
  refine ⟨h0, ?_⟩
  by_contra hlt
  rw [Pool.alloc, if_neg h0, if_pos (by omega)] at h
  cases h

/-- The level a request is served from. -/
def PoolCfg.levelFor (c : PoolCfg) (size : Nat) : Nat := c.sizeLog2 - blockLog2 size

/-- The free node a block of level `l` is cut from: the first of the list of the deepest level
    that has one. -/
structure Source (c : PoolCfg) (A : Set Path) (p : Pool) (l : Nat) (g : Path) : Prop where
  vacant : Vacant A g
  head : (p.freeList g.length).head = some (c.addr g)
  level : g.length ≤ l
  deepest : ∀ m, Vacant A m → m.length ≤ l → m.length ≤ g.length

namespace PoolInv

variable {c : PoolCfg} {X : Nat → Bool} {A : Set Path} {p : Pool} {size : Nat}

theorem levelFor_le (c : PoolCfg) (size : Nat) : c.levelFor size ≤ c.depth := by
  have h1 := c.sizeLog2_eq
  have h2 : 5 ≤ blockLog2 size := Nat.le_max_left _ _
  rw [PoolCfg.levelFor]
  omega

theorem log2_of_le (hs : size ≤ c.size) : log2 size = some (blockLog2 size) := by
  refine log2_eq (hs.trans ?_)
  rw [c.size_eq]
  exact Nat.pow_le_pow_right (by decide) (by have := c.small; omega)

theorem blockLog2_le (hs : size ≤ c.size) : blockLog2 size ≤ c.sizeLog2 := by
  have h1 := c.sizeLog2_eq
  rw [c.size_eq] at hs
  have h2 := (Nat.clog_le_iff_le_pow Nat.one_lt_two).mpr hs
  have h5 : minBlkSizeLog2 = 5 := rfl
  rw [blockLog2]
  omega

/-- The search finds the level of the source. -/
theorem findFree_source (h : PoolInv c X A p) {l : Nat} {g : Path} (hl : l ≤ c.depth)
    (hg : Source c A p l g) : p.findFree l = some g.length := by
  cases hf : p.findFree l with
  | none =>
      have := Pool.findFree_none hf g.length hg.level
      rw [hg.head] at this
      cases this
  | some k =>
      obtain ⟨hk, ⟨a, ha⟩, hno⟩ := Pool.findFree_some hf
      obtain ⟨n, hn, hv, -⟩ := h.rep.head_addr (by omega) ha
      have h1 := hg.deepest n hv (by omega)
      have h2 : ¬ k < g.length := fun hlt => by
        have := hno g.length hlt hg.level
        rw [hg.head] at this
        cases this
      congr 1
      omega

/-- Alloc from a given level. -/
theorem alloc_of_findFree (h0 : size ≠ 0) (hs : size ≤ c.size) {k : Nat}
    (hf : p.findFree (c.levelFor size) = some k) :
    p.alloc c size = (Pool.splitDown c (c.levelFor size - k) p k).bind fun q =>
      (q.takeHead c (c.levelFor size) (2 ^ (c.sizeLog2 - c.levelFor size))).bind
        fun r => some (.ok r) := by
  have hld := levelFor_le c size
  have hdiv : c.size / power2 (c.levelFor size) = 2 ^ (c.sizeLog2 - c.levelFor size) := by
    have := c.depth_lt
    have := c.sizeLog2_eq
    rw [power2_eq (by omega), c.size_eq, Nat.pow_div (by omega) (by decide)]
  rw [Pool.alloc, if_neg h0, if_neg (by omega), log2_of_le hs]
  simp only [Option.bind_eq_bind, Option.bind_some]
  rw [show c.sizeLog2 - blockLog2 size = c.levelFor size from rfl, hf]
  simp only [hdiv]

/-- **`k_mpool_alloc` returns**: it hands out a node of the level for the request, the leftmost in
    its source, or NULL with ENOMEM when no node of that level or above is vacant. -/
theorem alloc_spec (h : PoolInv c X A p) (h0 : size ≠ 0) (hs : size ≤ c.size) :
    (p.alloc c size = some (.error (some .ENOMEM)) ∧
      ∀ n, n.length ≤ c.levelFor size → ¬ Vacant A n) ∨
    ∃ n q, p.alloc c size = some (.ok (q, c.addr n)) ∧ n.length = c.levelFor size ∧
      n ∉ A ∧ PoolInv c X (insert n A) q ∧
      ∃ g, Source c A p (c.levelFor size) g ∧ n = leftmost (c.levelFor size - g.length) g := by
  have hld := levelFor_le c size
  cases hf : p.findFree (c.levelFor size) with
  | none =>
      refine Or.inl ⟨?_, fun n hn hv => ?_⟩
      · rw [Pool.alloc, if_neg h0, if_neg (by omega), log2_of_le hs]
        simp only [Option.bind_eq_bind, Option.bind_some]
        rw [show c.sizeLog2 - blockLog2 size = c.levelFor size from rfl, hf]
      have := Pool.findFree_none hf n.length hn
      exact (h.rep.head_none_iff (h.vacant_depth hv)).mp this n rfl hv
  | some k =>
      right
      obtain ⟨hk, ⟨a, ha⟩, hno⟩ := Pool.findFree_some hf
      obtain ⟨n, q, rfl, rfl, hv, htake, hq⟩ := h.takeHead (by omega) ha
      obtain ⟨p', q', h1, h2, h3⟩ := splitDown_spec (c.levelFor size - n.length) hv.not_mem
        (by omega) htake hq (fun m hm hm' => by
          rw [hv.vacant_claim]
          intro hx
          exact (h.rep.head_none_iff (by omega)).mp (hno m.length hm (by omega)) m rfl hx.1)
      rw [show n.length + (c.levelFor size - n.length) = c.levelFor size by omega] at h2
      refine ⟨leftmost (c.levelFor size - n.length) n, q', ?_, ?_, ?_, h3, n,
        ⟨hv, ha, hk, fun m hm hml => ?_⟩, rfl⟩
      · rw [alloc_of_findFree h0 hs hf, h1, Option.bind_some, h2]
        rfl
      · rw [leftmost, List.length_append, List.length_replicate]
        omega
      · -- nothing below a vacant node is allocated
        exact fun hm => hv.not_marked ⟨_, hm, suffix_leftmost _ _⟩
      · by_contra hlt
        have := hno m.length (by omega) hml
        exact (h.rep.head_none_iff (h.vacant_depth hm)).mp this m rfl hm

end PoolInv

end Rtx
