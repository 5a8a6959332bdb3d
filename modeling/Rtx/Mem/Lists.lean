/-
  File:      Rtx/Mem/Lists.lean
  Subject:   The bits and the free lists of a pool, the lists in their order.

  `Shows c X B Ls p`: the bits of `p` are the nodes of `B` (the root's bit may be set without `B`),
  behind the tree they are `X`, and the free list of the level `l` is the list of nodes `Ls l`,
  doubly linked, each once; no free node lies inside another. Each elementary step of alloc and
  dealloc has one lemma: what the pool shows after it.
-/
import Mathlib.Data.List.Nodup
import Mathlib.Data.List.Perm.Subperm
import Rtx.Mem.FreeList

namespace Rtx

open BlockTree

/-- The bits and the lists of a pool. -/
structure Shows (c : PoolCfg) (X : Nat → Bool) (B : Path → Prop) (Ls : Nat → List Path) (p : Pool) :
    Prop where
  bit : ∀ n, n ≠ [] → n.length ≤ c.depth → (p.bit n = true ↔ B n)
  root : B [] → p.bit [] = true
  beyond : ∀ i, 2 ^ (c.depth + 1) - 1 ≤ i → p.check i = X i
  level : ∀ l ≤ c.depth, ∀ n ∈ Ls l, n.length = l
  apart : ∀ l ≤ c.depth, ∀ l' ≤ c.depth, ∀ m ∈ Ls l, ∀ n ∈ Ls l', m <:+ n → m = n
  list : ∀ l ≤ c.depth, p.HoldsList l ((Ls l).map c.addr)

namespace Shows

variable {c : PoolCfg} {X : Nat → Bool} {B : Path → Prop} {Ls : Nat → List Path} {p p' : Pool}
  {n m : Path} {l : Nat} {ms ns ns₁ ns₂ : List Path}

/-- A node's bit is not behind the tree. -/
theorem bitIndex_ne (hd : n.length ≤ c.depth) {i : Nat} (hi : 2 ^ (c.depth + 1) - 1 ≤ i) :
    i ≠ bitIndex n.length (index n) := by
  have := bitIndex_lt (by have := c.depth_lt; omega) hd
  omega

/-- A list is never longer than its level has nodes, so `pop_block`'s loop ends. -/
theorem length_le {ns : List Path} (hn : (ns.map c.addr).Nodup) (hl : l ≤ c.depth)
    (hns : ∀ m, m ∈ ns → m.length = l) : (ns.map c.addr).length ≤ 2 ^ 32 := by
  have hd := c.depth_lt
  have hnd : (ns.map index).Nodup := by
    refine List.Nodup.map_on (fun m hm m' hm' e => ?_) (List.Nodup.of_map _ hn)
    exact eq_of_index_eq ((hns m hm).trans (hns m' hm').symm) e
  have hsub : ns.map index ⊆ List.range (2 ^ l) := by
    intro i hi
    obtain ⟨m, hm, rfl⟩ := List.mem_map.mp hi
    exact List.mem_range.mpr (hns m hm ▸ index_lt m)
  have := (hnd.subperm hsub).length_le
  rw [List.length_range, List.length_map] at this
  rw [List.length_map]
  exact this.trans (Nat.pow_le_pow_right (by decide) (by omega))

section Lemmas

variable (h : Shows c X B Ls p)
include h

theorem nodup (hl : l ≤ c.depth) : (Ls l).Nodup := List.Nodup.of_map _ (h.list l hl).nodup

/-- The free nodes of other levels are not among the addresses of a level's list. -/
theorem other_level (hns : ∀ n ∈ ns, n ∈ Ls l) (hl : l ≤ c.depth) {l' : Nat} (hl' : l' ≤ c.depth)
    (hne : l' ≠ l) (hm : m ∈ Ls l') : c.addr m ∉ ns.map c.addr := by
  intro hmem
  obtain ⟨n, hn, e⟩ := List.mem_map.mp hmem
  have hn' := hns n hn
  have hnl := h.level l hl n hn'
  have hml := h.level l' hl' m hm
  have h1 : ¬ n <:+ m := fun hs => hne (by rw [← hml, ← hnl, h.apart l hl l' hl' n hn' m hm hs])
  have h2 : ¬ m <:+ n := fun hs => hne (by rw [← hml, ← hnl, h.apart l' hl' l hl m hm n hn' hs])
  exact PoolCfg.addr_ne (hnl ▸ hl) (hml ▸ hl') h1 h2 e

/-- A step that rewrites the list of one level and touches no free node of another level. -/
theorem list_update {zs : List Nat} (ht : p.Touches p' l zs)
    (hz : ∀ l' ≤ c.depth, l' ≠ l → ∀ m ∈ Ls l', c.addr m ∉ zs)
    (hl : p'.HoldsList l (ns.map c.addr)) :
    ∀ l' ≤ c.depth, p'.HoldsList l' ((Function.update Ls l ns l').map c.addr) := by
  intro l' hl'
  by_cases e : l' = l
  · subst e
    rw [Function.update_self]
    exact hl
  · rw [Function.update_of_ne e]
    refine (h.list l' hl').congr (ht.head l' e) fun z hzm => ht.mem z ?_
    obtain ⟨m, hm, rfl⟩ := List.mem_map.mp hzm
    exact hz l' hl' e m hm

omit h in
/-- Where the nodes of an updated list come from. -/
theorem mem_update {l' : Nat} (hm : m ∈ Function.update Ls l ns l') :
    l' = l ∧ m ∈ ns ∨ l' ≠ l ∧ m ∈ Ls l' := by
  rw [Function.update_apply] at hm
  split at hm
  next e => exact Or.inl ⟨e, hm⟩
  next e => exact Or.inr ⟨e, hm⟩

omit h in
/-- The nodes of a shorter list. -/
theorem sub_update (hns : ∀ m ∈ ns, m ∈ Ls l) {l' : Nat} (hm : m ∈ Function.update Ls l ns l') :
    m ∈ Ls l' := by
  rcases mem_update hm with ⟨rfl, hm'⟩ | ⟨-, hm'⟩
  · exact hns m hm'
  · exact hm'

/-- Taking the head of a list claims its node. -/
theorem takeHead (hl : l ≤ c.depth) (hL : Ls l = n :: ms) :
    ∃ q, p.takeHead c l (2 ^ (c.sizeLog2 - l)) = some (q, c.addr n) ∧
      Shows c X (fun m => B m ∨ m = n) (Function.update Ls l ms) q := by
  have hn : n ∈ Ls l := hL ▸ List.mem_cons_self
  obtain rfl := h.level l hl n hn
  have h1 := h.list n.length hl
  rw [hL, List.map_cons] at h1
  obtain ⟨h3, h4⟩ := h1.pop
  have hbt : ((p.setHead n.length (p.mem (c.addr n)).next).setPrevIf
      (p.mem (c.addr n)).next none).bitTree = p.bitTree := by simp
  have htake : p.takeHead c n.length (2 ^ (c.sizeLog2 - n.length)) =
      some (((p.setHead n.length (p.mem (c.addr n)).next).setPrevIf
        (p.mem (c.addr n)).next none).mark (bitIndex n.length (index n)), c.addr n) := by
    unfold Pool.takeHead
    have hi : nodeOffset c (c.addr n) / 2 ^ (c.sizeLog2 - n.length) = index n :=
      PoolCfg.nodeOffset_addr hl
    have hh : (p.freeList n.length).head = some (c.addr n) := h1.head
    simp only [hh, Option.bind_eq_bind, Option.bind_some, hi]
  generalize (p.setHead n.length (p.mem (c.addr n)).next).setPrevIf
    (p.mem (c.addr n)).next none = q at h3 h4 hbt htake
  have hsub : ∀ m ∈ ms, m ∈ Ls n.length := fun m hm => hL ▸ List.mem_cons_of_mem _ hm
  refine ⟨q.mark (bitIndex n.length (index n)), htake, ⟨fun m h0 hm => ?_, fun hb => ?_,
    fun i hi => ?_, fun l' hl' m hm => h.level l' hl' m (sub_update hsub hm),
    fun l₁ hl₁ l₂ hl₂ m₁ hm₁ m₂ hm₂ => h.apart l₁ hl₁ l₂ hl₂ m₁ (sub_update hsub hm₁) m₂
      (sub_update hsub hm₂), ?_⟩⟩
  · rw [Pool.bit_mark _ hl hm, Bool.or_eq_true, decide_eq_true_iff, Pool.bit_congr hbt,
      h.bit m h0 hm, or_comm]
  · rw [Pool.bit_mark _ hl (Nat.zero_le _), Bool.or_eq_true, decide_eq_true_iff,
      Pool.bit_congr hbt]
    exact hb.elim (fun hb => Or.inr (h.root hb)) Or.inl
  · rw [Pool.check_mark, decide_eq_false (bitIndex_ne hl hi), Bool.false_or, Pool.check_congr hbt]
    exact h.beyond i hi
  · exact h.list_update ⟨h4.head, h4.mem⟩ (fun l' hl' hne m hm =>
      h.other_level hsub hl hl' hne hm) (h3.congr rfl fun _ _ => rfl)

/-- Splitting a taken block makes its two halves the list of the next level. -/
theorem putHalves (hd : n.length < c.depth)
    (hap : ∀ l ≤ c.depth, ∀ m ∈ Ls l, ¬ m <:+ n ∧ ¬ n <:+ m) :
    Shows c X B (Function.update Ls (n.length + 1) [false :: n, true :: n])
      (p.putHalves c n.length (c.addr n)) := by
  have hch : ∀ b : Bool, (b :: n).length ≤ c.depth := fun b => by
    rw [List.length_cons]
    omega
  have hlr : c.addr (false :: n) ≠ c.addr (true :: n) := fun e => by
    have := PoolCfg.addr_inj (by simp) e
    simp at this
  have hadd := PoolCfg.addr_right hd
  rw [PoolCfg.addr_left hd, hadd] at hlr
  obtain ⟨h1, h2, h3⟩ := Pool.holdsList_putHalves c p n.length (c.addr n) hlr
  have hmap : [c.addr n, c.addr n + c.size / power2 (n.length + 1)] =
      [false :: n, true :: n].map c.addr := by
    rw [List.map_cons, List.map_cons, PoolCfg.addr_left hd, hadd, List.map_nil]
  rw [hmap] at h1 h2
  have hpair : ∀ {m : Path}, m ∈ [false :: n, true :: n] → ∃ b, m = b :: n := fun {m} hm => by
    rw [List.mem_cons, List.mem_singleton] at hm
    rcases hm with rfl | rfl
    · exact ⟨false, rfl⟩
    · exact ⟨true, rfl⟩
  -- a free node and a child of `n` are on different branches
  have hchild : ∀ l ≤ c.depth, l ≠ n.length + 1 → ∀ m ∈ Ls l, ∀ b,
      ¬ m <:+ b :: n ∧ ¬ (b :: n) <:+ m := by
    intro l hl hne m hm b
    refine ⟨fun hs => ?_, fun hs => (hap l hl m hm).2 ((List.suffix_cons b n).trans hs)⟩
    rcases List.suffix_cons_iff.mp hs with rfl | hs
    · exact hne (h.level l hl _ hm).symm
    · exact (hap l hl m hm).1 hs
  refine ⟨fun m h0 hm => ?_, fun hb => ?_, fun i hi => ?_, fun l hl m hm => ?_,
    fun l₁ hl₁ l₂ hl₂ m₁ hm₁ m₂ hm₂ hs => ?_, ?_⟩
  · rw [Pool.bit_congr h3]
    exact h.bit m h0 hm
  · rw [Pool.bit_congr h3]
    exact h.root hb
  · rw [Pool.check_congr h3]
    exact h.beyond i hi
  · rcases mem_update hm with ⟨rfl, hm'⟩ | ⟨-, hm'⟩
    · obtain ⟨b, rfl⟩ := hpair hm'
      rfl
    · exact h.level l hl m hm'
  · rcases mem_update hm₁ with ⟨-, h₁⟩ | ⟨e₁, h₁⟩ <;>
      rcases mem_update hm₂ with ⟨-, h₂⟩ | ⟨e₂, h₂⟩
    · obtain ⟨b, rfl⟩ := hpair h₁
      obtain ⟨b', rfl⟩ := hpair h₂
      exact hs.eq_of_length (by simp)
    · obtain ⟨b, rfl⟩ := hpair h₁
      exact absurd hs (hchild l₂ hl₂ e₂ m₂ h₂ b).2
    · obtain ⟨b, rfl⟩ := hpair h₂
      exact absurd hs (hchild l₁ hl₁ e₁ m₁ h₁ b).1
    · exact h.apart l₁ hl₁ l₂ hl₂ m₁ h₁ m₂ h₂ hs
  · refine h.list_update h2 (fun l hl hne m hm hmem => ?_) h1
    obtain ⟨m', hm', e⟩ := List.mem_map.mp hmem
    obtain ⟨b, rfl⟩ := hpair hm'
    exact PoolCfg.addr_ne (hch b) ((h.level l hl m hm).trans_le hl) (hchild l hl hne m hm b).2
      (hchild l hl hne m hm b).1 e

theorem unmark (hd : n.length ≤ c.depth) :
    Shows c X (fun m => B m ∧ m ≠ n) Ls (p.unmark (bitIndex n.length (index n))) := by
  refine ⟨fun m hm0 hm => ?_, fun hb => ?_, fun i hi => ?_, h.level, h.apart, fun l hl => ?_⟩
  · rw [Pool.bit_unmark _ hd hm, Bool.and_eq_true, Bool.not_eq_true', decide_eq_false_iff_not,
      h.bit m hm0 hm, and_comm]
  · rw [Pool.bit_unmark _ hd (Nat.zero_le _), Bool.and_eq_true, Bool.not_eq_true',
      decide_eq_false_iff_not]
    exact ⟨hb.2, h.root hb.1⟩
  · rw [Pool.check_unmark, decide_eq_false (bitIndex_ne hd hi), Bool.not_false, Bool.true_and]
    exact h.beyond i hi
  · exact (h.list l hl).congr rfl fun _ _ => rfl

/-- A step that only shortens the list of one level. -/
theorem shorten {zs : List Path} (hl : l ≤ c.depth) (hns : ∀ m ∈ ns, m ∈ Ls l)
    (hzs : ∀ m ∈ zs, m ∈ Ls l) (ht : p.Touches p' l (zs.map c.addr))
    (hlist : p'.HoldsList l (ns.map c.addr)) (hbt : p'.bitTree = p.bitTree) :
    Shows c X B (Function.update Ls l ns) p' := by
  refine ⟨fun m h0 hm => ?_, fun hb => ?_, fun i hi => ?_,
    fun l' hl' m hm => h.level l' hl' m (sub_update hns hm),
    fun l₁ hl₁ l₂ hl₂ m₁ hm₁ m₂ hm₂ => h.apart l₁ hl₁ l₂ hl₂ m₁ (sub_update hns hm₁) m₂
      (sub_update hns hm₂),
    h.list_update ht (fun l' hl' hne m hm => h.other_level hzs hl hl' hne hm) hlist⟩
  · rw [Pool.bit_congr hbt]
    exact h.bit m h0 hm
  · rw [Pool.bit_congr hbt]
    exact h.root hb
  · rw [Pool.check_congr hbt]
    exact h.beyond i hi

/-- `pop_block` of a free node that is not the last of several: the list without it is left. -/
theorem popBlock_touches (hl : l ≤ c.depth) (hL : Ls l = ns₁ ++ n :: ns₂)
    (hpos : ns₁ = [] ∨ ns₂ ≠ []) : ∃ (p' : Pool) (zs : List Path),
      p.popBlock l (c.addr n) = some p' ∧ p'.HoldsList l ((ns₁ ++ ns₂).map c.addr) ∧
      p.Touches p' l (zs.map c.addr) ∧ p'.bitTree = p.bitTree ∧ ∀ m ∈ zs, m ∈ ns₁ ++ ns₂ := by
  have h1 := h.list l hl
  rw [hL] at h1
  have hlen := length_le h1.nodup hl fun m hm => h.level l hl m (hL ▸ hm)
  rcases List.eq_nil_or_concat' ns₁ with rfl | ⟨ms₁, x, rfl⟩
  · rw [List.nil_append, List.map_cons] at h1
    obtain ⟨p', h3, h4, h5, h6⟩ := Pool.popBlock_head h1
    exact ⟨p', ns₂, h3, h4, h5, h6, fun m hm => hm⟩
  · cases ns₂ with
    | nil =>
        rcases hpos with e | e
        · simp at e
        · exact absurd rfl e
    | cons y ms₂ =>
        have e : (ms₁ ++ [x] ++ n :: y :: ms₂).map c.addr =
            ms₁.map c.addr ++ c.addr x :: c.addr n :: c.addr y :: ms₂.map c.addr := by simp
        rw [e] at h1 hlen
        obtain ⟨p', h3, h4, h5, h6⟩ := Pool.popBlock_inner h1 hlen
        refine ⟨p', [x, y], h3, ?_, h5, h6, ?_⟩
        · simpa using h4
        · intro m hm
          simp only [List.mem_cons, List.not_mem_nil, or_false] at hm
          rcases hm with rfl | rfl <;> simp

/-- **`pop_block` takes a free node off its list, unless it is the last of several.** -/
theorem popBlock (hl : l ≤ c.depth) (hL : Ls l = ns₁ ++ n :: ns₂) (hpos : ns₁ = [] ∨ ns₂ ≠ []) :
    ∃ p', p.popBlock l (c.addr n) = some p' ∧ Shows c X B (Function.update Ls l (ns₁ ++ ns₂)) p' ∧
      p'.bitTree = p.bitTree ∧ (∀ l', l' ≠ l → (p'.freeList l').head = (p.freeList l').head) ∧
      ∀ l' ≤ c.depth, l' ≠ l → ∀ m ∈ Ls l', p'.mem (c.addr m) = p.mem (c.addr m) := by
  have hsub : ∀ m ∈ ns₁ ++ ns₂, m ∈ Ls l := fun m hm => by
    rw [hL]
    rw [List.mem_append] at hm ⊢
    exact hm.imp_right (List.mem_cons_of_mem n)
  obtain ⟨p', zs, hp, h3, h4, h5, hzs⟩ := h.popBlock_touches hl hL hpos
  refine ⟨p', hp, h.shorten hl hsub (fun m hm => hsub m (hzs m hm)) h4 h3 h5, h5, h4.head, ?_⟩
  intro l' hl' hne m hm
  exact h4.mem _ (h.other_level (fun m hm => hsub m (hzs m hm)) hl hl' hne hm)

/-- The last of several nodes stays in its list. -/
theorem popBlock_last (hl : l ≤ c.depth) (hL : Ls l = ns ++ [n]) (hne : ns ≠ []) :
    p.popBlock l (c.addr n) = some p := by
  have h1 := h.list l hl
  rw [hL] at h1
  have hlen := length_le h1.nodup hl fun m hm => h.level l hl m (hL ▸ hm)
  cases ns with
  | nil => exact absurd rfl hne
  | cons x ns =>
      have e : (x :: ns ++ [n]).map c.addr = c.addr x :: ns.map c.addr ++ [c.addr n] := by simp
      rw [e] at h1 hlen
      exact Pool.popBlock_last h1 hlen

/-- `pop_block` of a free node returns, wherever the node stands in its list. -/
theorem popBlock_any (hl : l ≤ c.depth) (hn : n ∈ Ls l) :
    ∃ p' ns, p.popBlock l (c.addr n) = some p' ∧ Shows c X B (Function.update Ls l ns) p' := by
  obtain ⟨ns₁, ns₂, hL⟩ := List.append_of_mem hn
  by_cases hpos : ns₁ = [] ∨ ns₂ ≠ []
  · obtain ⟨p', h1, h2, -⟩ := h.popBlock hl hL hpos
    exact ⟨p', _, h1, h2⟩
  · obtain ⟨hne, he⟩ := not_or.mp hpos
    obtain rfl := not_not.mp he
    refine ⟨p, Ls l, h.popBlock_last hl hL hne, ?_⟩
    rw [Function.update_eq_self]
    exact h

/-- Putting a block back makes its node the head of its list. -/
theorem putFreed (hd : n.length ≤ c.depth)
    (hap : ∀ l ≤ c.depth, ∀ m ∈ Ls l, ¬ m <:+ n ∧ ¬ n <:+ m) :
    Shows c X B (Function.update Ls n.length (n :: Ls n.length))
      (p.putFreed (c.addr n) n.length) := by
  have hna : c.addr n ∉ (Ls n.length).map c.addr := by
    intro hm
    obtain ⟨m, hm, e⟩ := List.mem_map.mp hm
    exact PoolCfg.addr_ne ((h.level _ hd m hm).trans_le hd) hd (hap _ hd m hm).1
      (hap _ hd m hm).2 e
  obtain ⟨h3, h4, h5⟩ := (h.list n.length hd).putFreed hna
  rw [← List.map_cons] at h3 h4
  have hnew : ∀ {l' : Nat} {m : Path}, m ∈ Function.update Ls n.length (n :: Ls n.length) l' →
      m = n ∨ m ∈ Ls l' := fun {l' m} hm => by
    rcases mem_update hm with ⟨rfl, hm'⟩ | ⟨-, hm'⟩
    · exact List.mem_cons.mp hm'
    · exact Or.inr hm'
  refine ⟨fun m h0 hm => ?_, fun hb => ?_, fun i hi => ?_, fun l hl m hm => ?_,
    fun l₁ hl₁ l₂ hl₂ m₁ hm₁ m₂ hm₂ hs => ?_, ?_⟩
  · rw [Pool.bit_congr h5]
    exact h.bit m h0 hm
  · rw [Pool.bit_congr h5]
    exact h.root hb
  · rw [Pool.check_congr h5]
    exact h.beyond i hi
  · rcases mem_update hm with ⟨rfl, hm'⟩ | ⟨-, hm'⟩
    · rcases List.mem_cons.mp hm' with rfl | hm''
      · rfl
      · exact h.level _ hl m hm''
    · exact h.level l hl m hm'
  · rcases hnew hm₁ with e₁ | h₁ <;> rcases hnew hm₂ with e₂ | h₂
    · exact e₁.trans e₂.symm
    · exact absurd (e₁ ▸ hs) (hap l₂ hl₂ m₂ h₂).2
    · exact absurd (e₂ ▸ hs) (hap l₁ hl₁ m₁ h₁).1
    · exact h.apart l₁ hl₁ l₂ hl₂ m₁ h₁ m₂ h₂ hs
  · refine h.list_update h4 (fun l hl hne m hm => ?_) h3
    rw [List.map_cons, List.mem_cons, not_or]
    refine ⟨PoolCfg.addr_ne ((h.level l hl m hm).trans_le hl) hd (hap l hl m hm).1
      (hap l hl m hm).2, ?_⟩
    exact h.other_level (fun m hm => hm) hd hl hne hm

/-- Putting the whole pool back, when nothing is free. -/
theorem putRoot (hno : ∀ l ≤ c.depth, Ls l = []) :
    Shows c X B (Function.update Ls 0 [[]]) (p.putRoot c) := by
  have hnew : ∀ {l : Nat} {m : Path}, l ≤ c.depth → m ∈ Function.update Ls 0 [[]] l → l = 0 ∧ m = [] :=
    fun {l m} hl hm => by
      rcases mem_update hm with ⟨rfl, hm'⟩ | ⟨-, hm'⟩
      · exact ⟨rfl, List.mem_singleton.mp hm'⟩
      · rw [hno l hl] at hm'
        exact absurd hm' List.not_mem_nil
  refine ⟨h.bit, h.root, h.beyond, fun l hl m hm => ?_, fun l₁ hl₁ l₂ hl₂ m₁ hm₁ m₂ hm₂ _ => ?_,
    fun l hl => ?_⟩
  · obtain ⟨rfl, rfl⟩ := hnew hl hm
    rfl
  · rw [(hnew hl₁ hm₁).2, (hnew hl₂ hm₂).2]
  · cases l with
    | zero =>
        rw [Function.update_self, List.map_singleton, PoolCfg.addr_root]
        refine ⟨?_, Lib.linked_singleton.mpr ?_, fun a ha => ?_, by simp⟩
        · simp [Pool.putRoot, Pool.setHead_head]
        · simp [Pool.putRoot, Pool.setNext_next]
        · obtain rfl : c.start = a := by simpa using ha
          simp [Pool.putRoot, Pool.setPrev_prev]
    | succ l =>
        rw [Function.update_of_ne (by omega)]
        have h1 := h.list (l + 1) hl
        rw [hno _ hl] at h1 ⊢
        exact h1.congr (by simp [Pool.putRoot, Pool.setHead_head]) (by simp)

end Lemmas

end Shows

end Rtx
