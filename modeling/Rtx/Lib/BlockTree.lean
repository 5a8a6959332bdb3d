/-
  File:      Rtx/Lib/BlockTree.lean
  Subject:   A binary tree of blocks, described by the set of its allocated nodes.

  A node is the path to it, LEAF FIRST: `[]` is the root, `b :: p` is a child of `p` (the right
  one when `b` is `true`). So `m <:+ n` says that `m` is `n` or an ancestor of `n`.

  A tree in which no split node has two free children is determined by its allocated nodes `A`
  (an antichain): a node is split when an allocated node lies strictly below it, and a node is
  vacant (a maximal free block) when it is not marked and its parent is split. Three moves:

  * `Antichain.claim`   -- a vacant node becomes allocated;
  * `Antichain.split`   -- an allocated node is replaced by one of its children;
  * `Antichain.merge`   -- an allocated node whose sibling is unmarked is replaced by its parent;
  * `Antichain.release` -- an allocated node that has no unmarked sibling is freed.

  Each move says what happens to the marked, the split and the vacant nodes.

  Section 5 lays the tree out over `2 ^ S` cells: a node of length `l` is the block of
  `2 ^ (S - l)` cells with number `index` in its level. Nodes on different branches are disjoint
  blocks (`apart_of_not_suffix`).
-/
import Mathlib.Data.Set.Insert
import Mathlib.Data.List.Infix
import Mathlib.Tactic.Ring

namespace Rtx.BlockTree

/-- A node of the tree: the path to it, leaf first. -/
abbrev Path := List Bool

variable {A : Set Path} {m n p : Path} {b : Bool}

/-- `n` is allocated or has an allocated node below it. -/
def Marked (A : Set Path) (n : Path) : Prop := ∃ a ∈ A, n <:+ a

/-- `n` has an allocated node strictly below it. -/
def Split (A : Set Path) (n : Path) : Prop := ∃ a ∈ A, n <:+ a ∧ n ≠ a

/-- `n` is a maximal free block: unmarked, with a split parent if it has one. -/
def Vacant (A : Set Path) : Path → Prop
  | [] => ¬ Marked A []
  | b :: p => ¬ Marked A (b :: p) ∧ Split A p

/-- No allocated node lies inside another one. -/
def Antichain (A : Set Path) : Prop := ∀ a ∈ A, ∀ c ∈ A, a <:+ c → a = c

/-! ## 1. Nodes -/

theorem sibling_ne (b : Bool) (p : Path) : (!b) :: p ≠ b :: p := by
  cases b <;> simp

theorem not_cons_suffix (b : Bool) (p : Path) : ¬ (b :: p) <:+ p := by
  intro h
  have := h.length_le
  simp only [List.length_cons] at this
  omega

/-- What lies at or below a node: the node, or something at or below one of its children. -/
theorem suffix_iff_child : n <:+ m ↔ n = m ∨ ∃ b, (b :: n) <:+ m := by
  constructor
  · intro hp
    obtain ⟨t, rfl⟩ := hp
    rcases List.eq_nil_or_concat t with rfl | ⟨t', b, rfl⟩
    · exact Or.inl rfl
    · exact Or.inr ⟨b, t', by simp⟩
  · intro hp
    rcases hp with rfl | ⟨b, h⟩
    · exact List.suffix_refl _
    · exact (List.suffix_cons b n).trans h

/-! ## 2. Marked, split and vacant nodes -/

theorem Marked.of_suffix (h : Marked A n) (hm : m <:+ n) : Marked A m := by
  obtain ⟨a, ha, hna⟩ := h
  exact ⟨a, ha, hm.trans hna⟩

theorem Split.marked (h : Split A n) : Marked A n := by
  obtain ⟨a, ha, hna, _⟩ := h
  exact ⟨a, ha, hna⟩

theorem marked_of_mem (h : n ∈ A) : Marked A n := ⟨n, h, List.suffix_refl n⟩

theorem marked_iff : Marked A n ↔ n ∈ A ∨ Split A n := by
  constructor
  · intro hp
    obtain ⟨a, ha, hna⟩ := hp
    by_cases h : n = a
    · exact Or.inl (h ▸ ha)
    · exact Or.inr ⟨a, ha, hna, h⟩
  · intro hp
    rcases hp with h | h
    · exact marked_of_mem h
    · exact h.marked

/-- A node is split exactly when one of its children is marked. -/
theorem split_iff_child : Split A n ↔ ∃ b, Marked A (b :: n) := by
  constructor
  · intro hp
    obtain ⟨a, ha, hna, hne⟩ := hp
    rcases suffix_iff_child.mp hna with h | ⟨b, h⟩
    · exact absurd h hne
    · exact ⟨b, a, ha, h⟩
  · intro hp
    obtain ⟨b, a, ha, h⟩ := hp
    refine ⟨a, ha, (List.suffix_cons b n).trans h, ?_⟩
    rintro rfl
    exact not_cons_suffix b n h

theorem Split.of_child (h : Marked A (b :: n)) : Split A n := split_iff_child.mpr ⟨b, h⟩

/-- An allocated node of an antichain is not split. -/
theorem Antichain.not_split (hA : Antichain A) (h : n ∈ A) : ¬ Split A n := by
  intro hp
  obtain ⟨a, ha, hna, hne⟩ := hp
  exact hne (hA n h a ha hna)

theorem Vacant.not_marked (h : Vacant A n) : ¬ Marked A n := by
  cases n with
  | nil => exact h
  | cons b p => exact h.1

theorem Vacant.not_mem (h : Vacant A n) : n ∉ A := fun hn => h.not_marked (marked_of_mem hn)

/-- Nothing at or above a vacant node is allocated. -/
theorem Vacant.not_covered (hA : Antichain A) (h : Vacant A n) {a : Path} (ha : a ∈ A) :
    ¬ a <:+ n := by
  intro han
  cases n with
  | nil => exact h.not_mem (List.suffix_nil.mp han ▸ ha)
  | cons b p =>
      rcases List.suffix_cons_iff.mp han with rfl | hap
      · exact h.not_mem ha
      · obtain ⟨c, hc, hpc, hne⟩ := h.2
        have := hA a ha c hc (hap.trans hpc)
        subst this
        exact hne (hpc.eq_of_length_le hap.length_le)

/-- A vacant node and an allocated one are on different branches. -/
theorem Vacant.apart (hA : Antichain A) (h : Vacant A n) {a : Path} (ha : a ∈ A) :
    ¬ a <:+ n ∧ ¬ n <:+ a :=
  ⟨h.not_covered hA ha, fun hna => h.not_marked ⟨a, ha, hna⟩⟩

/-- Of two vacant nodes none lies above the other. -/
theorem Vacant.eq_of_suffix (h : Vacant A m) (h' : Vacant A n) (hmn : m <:+ n) : m = n := by
  cases n with
  | nil => exact List.suffix_nil.mp hmn
  | cons b p =>
      rcases List.suffix_cons_iff.mp hmn with rfl | hmp
      · rfl
      · exact absurd (h'.2.marked.of_suffix hmp) h.not_marked

/-- The sibling of a marked node is vacant as soon as it is unmarked. -/
theorem vacant_sibling (h : Marked A (b :: p)) (hs : ¬ Marked A ((!b) :: p)) :
    Vacant A ((!b) :: p) :=
  ⟨hs, Split.of_child h⟩

/-- On the way down to a node there is an allocated node or a vacant one, or the node is split. -/
theorem covered_or_vacant (A : Set Path) (n : Path) :
    (∃ a ∈ A, a <:+ n) ∨ (∃ v, Vacant A v ∧ v <:+ n) ∨ Split A n := by
  induction n with
  | nil =>
      by_cases h : Marked A []
      · exact (marked_iff.mp h).imp (fun h => ⟨[], h, List.suffix_refl _⟩) Or.inr
      · exact Or.inr (Or.inl ⟨[], h, List.suffix_refl _⟩)
  | cons b p ih =>
      have hp := List.suffix_cons b p
      obtain ⟨a, ha, hs⟩ | ⟨v, hv, hs⟩ | hsplit := ih
      · exact Or.inl ⟨a, ha, hs.trans hp⟩
      · exact Or.inr (Or.inl ⟨v, hv, hs.trans hp⟩)
      by_cases h : Marked A (b :: p)
      · exact (marked_iff.mp h).imp (fun h => ⟨b :: p, h, List.suffix_refl _⟩) Or.inr
      · exact Or.inr (Or.inl ⟨b :: p, ⟨h, hsplit⟩, List.suffix_refl _⟩)

theorem vacant_root_iff : Vacant A [] ↔ A = ∅ := by
  constructor
  · intro h
    refine Set.eq_empty_iff_forall_notMem.mpr fun a ha => h ⟨a, ha, List.nil_suffix⟩
  · rintro rfl ⟨a, ha, _⟩
    exact ha

theorem not_marked_empty (n : Path) : ¬ Marked ∅ n := fun ⟨_, ha, _⟩ => ha

theorem vacant_empty_iff : Vacant ∅ n ↔ n = [] := by
  cases n with
  | nil => simp [Vacant, not_marked_empty]
  | cons b p =>
      simp only [Vacant, reduceCtorEq, iff_false, not_and]
      intro _ hp
      obtain ⟨a, ha, _⟩ := hp
      exact ha

theorem antichain_empty : Antichain ∅ := fun _ ha => absurd ha (Set.notMem_empty _)

/-! ## 3. Claiming a vacant node, and giving one back -/

section Claim

theorem marked_insert : Marked (insert n A) m ↔ Marked A m ∨ m <:+ n := by
  constructor
  · intro hp
    obtain ⟨a, rfl | ha, h⟩ := hp
    · exact Or.inr h
    · exact Or.inl ⟨a, ha, h⟩
  · intro hp
    rcases hp with ⟨a, ha, h⟩ | h
    · exact ⟨a, Or.inr ha, h⟩
    · exact ⟨n, Or.inl rfl, h⟩

variable (hv : Vacant A n)
include hv

/-- Everything strictly above a vacant node is split already. -/
theorem Vacant.split_above (hm : m <:+ n) (hne : m ≠ n) : Split A m := by
  cases n with
  | nil => exact absurd (List.suffix_nil.mp hm) hne
  | cons b p =>
      rcases List.suffix_cons_iff.mp hm with h | hmp
      · exact absurd h hne
      · obtain ⟨a, ha, hpa, hpne⟩ := hv.2
        refine ⟨a, ha, hmp.trans hpa, ?_⟩
        rintro rfl
        exact hpne (hpa.eq_of_length_le hmp.length_le)

theorem Vacant.marked_claim : Marked (insert n A) m ↔ Marked A m ∨ m = n := by
  rw [marked_insert]
  constructor
  · intro hp
    rcases hp with h | h
    · exact Or.inl h
    · by_cases e : m = n
      · exact Or.inr e
      · exact Or.inl (hv.split_above h e).marked
  · intro hp
    rcases hp with h | rfl
    · exact Or.inl h
    · exact Or.inr (List.suffix_refl _)

theorem Vacant.split_claim : Split (insert n A) m ↔ Split A m := by
  constructor
  · intro hp
    obtain ⟨a, rfl | ha, h, hne⟩ := hp
    · exact hv.split_above h hne
    · exact ⟨a, ha, h, hne⟩
  · intro hp
    obtain ⟨a, ha, h⟩ := hp
    exact ⟨a, Or.inr ha, h⟩

theorem Vacant.vacant_claim : Vacant (insert n A) m ↔ Vacant A m ∧ m ≠ n := by
  cases m with
  | nil => simp only [Vacant, hv.marked_claim]; tauto
  | cons b p => simp only [Vacant, hv.marked_claim, hv.split_claim]; tauto

theorem Antichain.claim (hA : Antichain A) : Antichain (insert n A) := by
  rintro a (rfl | ha) c (rfl | hc) hac
  · rfl
  · exact absurd hac (hv.apart hA hc).2
  · exact absurd hac (hv.apart hA ha).1
  · exact hA a ha c hc hac

end Claim

theorem Antichain.mono (hA : Antichain A) {A' : Set Path} (h : A' ⊆ A) : Antichain A' :=
  fun a ha c hc => hA a (h ha) c (h hc)

/-- A node without an unmarked sibling, taken out of the allocated nodes, is vacant. -/
theorem Antichain.vacant_release (hA : Antichain A) (hn : n ∈ A)
    (hs : ∀ b p, n = b :: p → Marked A ((!b) :: p)) : Vacant (A \ {n}) n := by
  have hnm : ¬ Marked (A \ {n}) n := by
    intro hp
    obtain ⟨a, ⟨ha, hne⟩, hna⟩ := hp
    exact hne (hA n hn a ha hna).symm
  cases n with
  | nil => exact hnm
  | cons b p =>
      refine ⟨hnm, ?_⟩
      obtain ⟨a, ha, h⟩ := hs b p rfl
      refine Split.of_child (b := !b) ⟨a, ⟨ha, ?_⟩, h⟩
      rintro rfl
      exact sibling_ne b p (h.eq_of_length (by simp))

theorem insert_release (hn : n ∈ A) : insert n (A \ {n}) = A := by
  ext a
  by_cases h : a = n <;> simp [h, hn]

/-! ## 4. Splitting an allocated node, and merging two siblings -/

section Split

variable (hA : Antichain A) (hn : n ∈ A)
include hA hn

omit hA in
theorem marked_split :
    Marked (insert (b :: n) (A \ {n})) m ↔ Marked A m ∨ m = b :: n := by
  rw [marked_insert, List.suffix_cons_iff]
  constructor
  · intro hp
    rcases hp with ⟨a, ⟨ha, _⟩, h⟩ | h | h
    · exact Or.inl ⟨a, ha, h⟩
    · exact Or.inr h
    · exact Or.inl ⟨n, hn, h⟩
  · intro hp
    rcases hp with ⟨a, ha, h⟩ | h
    · by_cases e : a = n
      · exact Or.inr (Or.inr (e ▸ h))
      · exact Or.inl ⟨a, ⟨ha, e⟩, h⟩
    · exact Or.inr (Or.inl h)

omit hA in
theorem split_split : Split (insert (b :: n) (A \ {n})) m ↔ Split A m ∨ m = n := by
  simp only [split_iff_child, marked_split hn]
  constructor
  · intro hp
    obtain ⟨c, h | h⟩ := hp
    · exact Or.inl ⟨c, h⟩
    · exact Or.inr (List.cons.inj h).2
  · intro hp
    rcases hp with ⟨c, h⟩ | rfl
    · exact ⟨c, Or.inl h⟩
    · exact ⟨b, Or.inr rfl⟩

theorem Antichain.vacant_split :
    Vacant (insert (b :: n) (A \ {n})) m ↔ Vacant A m ∨ m = (!b) :: n := by
  have hbelow : ∀ c, ¬ Marked A (c :: n) := fun c h => hA.not_split hn (.of_child h)
  cases m with
  | nil => simp [Vacant, marked_split hn]
  | cons c q =>
      simp only [Vacant, marked_split hn, split_split hn, List.cons.injEq]
      by_cases hq : q = n
      · subst hq
        have := hbelow c
        have := hA.not_split hn
        cases b <;> cases c <;> simp_all
      · simp [hq]

theorem Antichain.split : Antichain (insert (b :: n) (A \ {n})) := by
  have hbelow : ¬ Marked A (b :: n) := fun h => hA.not_split hn (.of_child h)
  rintro a (rfl | ⟨ha, hane⟩) c (rfl | ⟨hc, hcne⟩) hac
  · rfl
  · exact absurd ⟨c, hc, hac⟩ hbelow
  · rcases List.suffix_cons_iff.mp hac with rfl | h
    · rfl
    · exact absurd (hA a ha n hn h) hane
  · exact hA a ha c hc hac

end Split

section Merge

variable (hA : Antichain A) (hn : b :: p ∈ A) (hs : ¬ Marked A ((!b) :: p))
include hA hn hs

/-- Nothing else is allocated at or below the parent of a node with an unmarked sibling. -/
theorem Antichain.only_below {a : Path} (ha : a ∈ A) (h : p <:+ a) : a = b :: p := by
  rcases suffix_iff_child.mp h with rfl | ⟨c, hc⟩
  · exact hA p ha _ hn (List.suffix_cons b p)
  · by_cases e : c = b
    · exact (hA _ hn a ha (e ▸ hc)).symm
    · have : c = !b := by cases b <;> cases c <;> simp_all
      exact absurd ⟨a, ha, this ▸ hc⟩ hs

theorem Antichain.merge : Antichain (insert p (A \ {b :: p})) := by
  rintro a (rfl | ⟨ha, hane⟩) c (rfl | ⟨hc, hcne⟩) hac
  · rfl
  · exact absurd (hA.only_below hn hs hc hac) hcne
  · exact absurd (hA a ha _ hn (hac.trans (List.suffix_cons b c))) hane
  · exact hA a ha c hc hac

/-- Merging is the inverse of splitting. -/
theorem Antichain.split_merge :
    insert (b :: p) (insert p (A \ {b :: p}) \ {p}) = A := by
  have hp : p ∉ A := fun h =>
    not_cons_suffix b p ((hA p h _ hn (List.suffix_cons b p)) ▸ List.suffix_refl _)
  ext a
  by_cases h : a = b :: p
  · simp [h, hn]
  · by_cases e : a = p
    · subst e; simp [hp]
    · simp [h, e]

theorem Antichain.marked_merge :
    Marked (insert p (A \ {b :: p})) m ↔ Marked A m ∧ m ≠ b :: p := by
  have h := marked_split (A := insert p (A \ {b :: p})) (b := b) (m := m) (Set.mem_insert p _)
  rw [hA.split_merge hn hs] at h
  have hnot : ¬ Marked (insert p (A \ {b :: p})) (b :: p) := fun hm =>
    (hA.merge hn hs).not_split (Set.mem_insert p _) (.of_child hm)
  constructor
  · intro hm
    exact ⟨h.mpr (Or.inl hm), fun e => hnot (e ▸ hm)⟩
  · intro hp
    obtain ⟨hm, hne⟩ := hp
    exact (h.mp hm).resolve_right hne

theorem Antichain.vacant_merge :
    Vacant (insert p (A \ {b :: p})) m ↔ Vacant A m ∧ m ≠ (!b) :: p := by
  have h := (hA.merge hn hs).vacant_split (b := b) (m := m) (Set.mem_insert p _)
  rw [hA.split_merge hn hs] at h
  have hnot : ¬ Vacant (insert p (A \ {b :: p})) ((!b) :: p) := fun hv =>
    (hA.merge hn hs).not_split (Set.mem_insert p _) hv.2
  constructor
  · intro hm
    exact ⟨h.mpr (Or.inl hm), fun e => hnot (e ▸ hm)⟩
  · intro hp
    obtain ⟨hm, hne⟩ := hp
    exact (h.mp hm).resolve_right hne

end Merge

/-! ## 5. The cells of a node -/

/-- The number of a node in its level. -/
def index : Path → Nat
  | [] => 0
  | b :: p => 2 * index p + b.toNat

/-- The node with number `x` in level `l`. -/
def path : Nat → Nat → Path
  | 0, _ => []
  | l + 1, x => decide (x % 2 = 1) :: path l (x / 2)

@[simp] theorem length_path (l x : Nat) : (path l x).length = l := by
  induction l generalizing x with
  | zero => rfl
  | succ l ih => simp [path, ih]

theorem index_lt (p : Path) : index p < 2 ^ p.length := by
  induction p with
  | nil => simp [index]
  | cons b p ih =>
      have hb : b.toNat ≤ 1 := Bool.toNat_le b
      rw [List.length_cons, Nat.pow_succ]
      unfold index
      omega

theorem index_path {l x : Nat} (h : x < 2 ^ l) : index (path l x) = x := by
  induction l generalizing x with
  | zero => simp only [path, index]; omega
  | succ l ih =>
      rw [Nat.pow_succ] at h
      have hx : index (path l (x / 2)) = x / 2 := ih (by omega)
      rw [path, index, hx]
      rcases Nat.mod_two_eq_zero_or_one x with e | e
      · simp only [e, Nat.zero_ne_one, decide_false, Bool.toNat_false]; omega
      · simp only [e, decide_true, Bool.toNat_true]; omega

theorem index_div_two (b : Bool) (p : Path) : index (b :: p) / 2 = index p := by
  have hb : b.toNat ≤ 1 := Bool.toNat_le b
  rw [index]
  omega

theorem index_mod_two (b : Bool) (p : Path) : index (b :: p) % 2 = b.toNat := by
  have hb : b.toNat ≤ 1 := Bool.toNat_le b
  rw [index]
  omega

theorem path_index (p : Path) : path p.length (index p) = p := by
  induction p with
  | nil => rfl
  | cons b p ih =>
      rw [List.length_cons, path, index_div_two, index_mod_two, ih]
      cases b <;> rfl

theorem eq_of_index_eq {p q : Path} (hl : p.length = q.length) (h : index p = index q) :
    p = q := by
  rw [← path_index p, ← path_index q, hl, h]

/-- The sibling's number differs in the last bit. -/
theorem index_sibling (b : Bool) (p : Path) : index (b :: p) ^^^ 1 = index ((!b) :: p) := by
  have h1 : (index (b :: p) ^^^ 1) / 2 = index p := by
    rw [← Nat.shiftRight_one, Nat.shiftRight_xor_distrib, Nat.shiftRight_one, index_div_two]
    simp
  have h2 : (index (b :: p) ^^^ 1) % 2 = (!b).toNat := by
    have := Nat.xor_mod_two_pow (a := index (b :: p)) (b := 1) (n := 1)
    rw [Nat.pow_one, index_mod_two] at this
    rw [this]
    cases b <;> rfl
  have e : index ((!b) :: p) = 2 * index p + (!b).toNat := rfl
  omega

/-- The size of a node of length `l` when the tree covers `2 ^ S` cells. -/
def blockSize (S : Nat) (p : Path) : Nat := 2 ^ (S - p.length)

/-- The first cell of a node. -/
def offset (S : Nat) (p : Path) : Nat := index p * blockSize S p

theorem blockSize_pos (S : Nat) (p : Path) : 0 < blockSize S p := Nat.two_pow_pos _

theorem blockSize_parent {S : Nat} {b : Bool} {p : Path} (h : (b :: p).length ≤ S) :
    blockSize S p = 2 * blockSize S (b :: p) := by
  rw [List.length_cons] at h
  rw [blockSize, blockSize, List.length_cons, ← Nat.pow_succ']
  congr 1
  omega

theorem offset_child {S : Nat} {b : Bool} {p : Path} (h : (b :: p).length ≤ S) :
    offset S (b :: p) = offset S p + b.toNat * blockSize S (b :: p) := by
  rw [offset, offset, blockSize_parent h, index]
  ring

theorem offset_left {S : Nat} {p : Path} (h : p.length < S) :
    offset S (false :: p) = offset S p := by
  rw [offset_child (by rw [List.length_cons]; omega)]
  simp

/-- A node's block lies inside the region. -/
theorem offset_add_blockSize_le {S : Nat} {p : Path} (h : p.length ≤ S) :
    offset S p + blockSize S p ≤ 2 ^ S := by
  have e : 2 ^ S = 2 ^ p.length * blockSize S p := by
    rw [blockSize, ← Nat.pow_add]
    congr 1
    omega
  have hi : index p + 1 ≤ 2 ^ p.length := index_lt p
  calc offset S p + blockSize S p = (index p + 1) * blockSize S p := by rw [offset]; ring
    _ ≤ 2 ^ p.length * blockSize S p := Nat.mul_le_mul_right _ hi
    _ = 2 ^ S := e.symm

/-- A node's block lies inside the block of every node above it. -/
theorem block_subset {S : Nat} {p q : Path} (hq : q.length ≤ S) (h : p <:+ q) :
    offset S p ≤ offset S q ∧ offset S q + blockSize S q ≤ offset S p + blockSize S p := by
  obtain ⟨t, rfl⟩ := h
  induction t with
  | nil => exact ⟨Nat.le_refl _, Nat.le_refl _⟩
  | cons b t ih =>
      have hb : b.toNat ≤ 1 := Bool.toNat_le b
      have hl : (b :: (t ++ p)).length ≤ S := hq
      obtain ⟨h1, h2⟩ := ih (by rw [List.length_cons] at hl; omega)
      have e := offset_child hl
      have e2 := blockSize_parent hl
      rw [List.cons_append]
      cases b
      · simp only [Bool.toNat_false, Nat.zero_mul] at e; omega
      · simp only [Bool.toNat_true, Nat.one_mul] at e; omega

/-- **Nodes on different branches are disjoint blocks.** -/
theorem apart_of_not_suffix {S : Nat} {p q : Path} (hp : p.length ≤ S) (hq : q.length ≤ S)
    (h1 : ¬ p <:+ q) (h2 : ¬ q <:+ p) :
    offset S p + blockSize S p ≤ offset S q ∨ offset S q + blockSize S q ≤ offset S p := by
  -- by symmetry `p` is the shorter one; compare it with `q`'s ancestor of the same length
  wlog hle : p.length ≤ q.length with H
  · exact (H hq hp h2 h1 (by omega)).symm
  have hd : (q.drop (q.length - p.length)).length = p.length := by rw [List.length_drop]; omega
  have hsub := block_subset hq (List.drop_suffix (q.length - p.length) q)
  have hs : blockSize S (q.drop (q.length - p.length)) = blockSize S p := by
    rw [blockSize, hd, blockSize]
  have hne : index p ≠ index (q.drop (q.length - p.length)) := by
    intro e
    exact h1 (eq_of_index_eq hd.symm e ▸ List.drop_suffix _ _)
  have ho : offset S (q.drop (q.length - p.length)) =
      index (q.drop (q.length - p.length)) * blockSize S p := by rw [offset, hs]
  have ho' : offset S p = index p * blockSize S p := rfl
  rw [hs] at hsub
  rcases Nat.lt_or_gt_of_ne hne with hlt | hlt
  · left
    have : (index p + 1) * blockSize S p ≤ index (q.drop (q.length - p.length)) * blockSize S p :=
      Nat.mul_le_mul_right _ hlt
    rw [Nat.succ_mul] at this
    omega
  · right
    have : (index (q.drop (q.length - p.length)) + 1) * blockSize S p ≤ index p * blockSize S p :=
      Nat.mul_le_mul_right _ hlt
    rw [Nat.succ_mul] at this
    omega

theorem offset_ne {S : Nat} {p q : Path} (hp : p.length ≤ S) (hq : q.length ≤ S)
    (h1 : ¬ p <:+ q) (h2 : ¬ q <:+ p) : offset S p ≠ offset S q := by
  have := apart_of_not_suffix hp hq h1 h2
  have := blockSize_pos S p
  have := blockSize_pos S q
  omega

/-- The leftmost node `k` levels below `p`. -/
def leftmost (k : Nat) (p : Path) : Path := List.replicate k false ++ p

theorem index_leftmost (k : Nat) (p : Path) : index (leftmost k p) = index p * 2 ^ k := by
  induction k with
  | zero => simp [leftmost]
  | succ k ih =>
      have e : leftmost (k + 1) p = false :: leftmost k p := rfl
      rw [e, index, ih, Nat.pow_succ, Bool.toNat_false]
      ring

theorem suffix_leftmost (k : Nat) (p : Path) : p <:+ leftmost k p := List.suffix_append _ _

end Rtx.BlockTree
