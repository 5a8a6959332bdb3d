/-
  File:      Rtx/Lib/Shape.lean
  Subject:   A pool as a tree of free, allocated and split blocks.

  `Shape` is the tree itself; `Shape.sub T n` is the subtree at the node `n`, if `T` reaches that
  far. A shape in which no split node has two free children and the antichain of its allocated
  nodes determine each other: what is marked, split and vacant over the antichain
  (BlockTree.lean) is what the shape says (`marked_iff`, `split_iff`, `vacant_iff`), and every
  antichain has a shape (`exists_shape`).
-/
import Rtx.Lib.BlockTree

namespace Rtx.BlockTree

/-- A tree of blocks. -/
inductive Shape where
  | free
  | allocated
  | split (left right : Shape)
  deriving DecidableEq, Repr

namespace Shape

/-! ## 1. Subtrees -/

/-- The subtree at a node. -/
def sub (T : Shape) : Path → Option Shape
  | [] => some T
  | b :: p =>
      match T.sub p with
      | some (split l r) => some (if b then r else l)
      | _ => none

/-- No split node has two free children. -/
def Merged : Shape → Prop
  | free | allocated => True
  | split l r => ¬ (l = free ∧ r = free) ∧ l.Merged ∧ r.Merged

/-- The level of the deepest leaf. -/
def height : Shape → Nat
  | free | allocated => 0
  | split l r => max l.height r.height + 1

/-- The allocated nodes. -/
def allocs (T : Shape) : Set Path := {n | T.sub n = some allocated}

variable {T U l r : Shape} {m n p : Path} {b : Bool}

theorem sub_cons : T.sub (b :: p) = some U ↔
    ∃ l r, T.sub p = some (split l r) ∧ U = if b then r else l := by
  rw [sub]
  constructor
  · intro h
    split at h
    next l r hs => exact ⟨l, r, hs, (Option.some.inj h).symm⟩
    · cases h
  · rintro ⟨l, r, hs, rfl⟩
    rw [hs]

theorem sub_append (h : T.sub n = some U) (q : Path) : T.sub (q ++ n) = U.sub q := by
  induction q with
  | nil => exact h
  | cons b q ih => rw [List.cons_append, sub, sub, ih]

/-- What lies strictly above a node is split. -/
theorem sub_above (h : T.sub n = some U) (hm : m <:+ n) (hne : m ≠ n) :
    ∃ l r, T.sub m = some (split l r) := by
  induction n generalizing U with
  | nil => exact absurd (List.suffix_nil.mp hm) hne
  | cons b n ih =>
      obtain ⟨l, r, hs, -⟩ := sub_cons.mp h
      rcases List.suffix_cons_iff.mp hm with e | hm
      · exact absurd e hne
      · by_cases e : m = n
        · exact ⟨l, r, e ▸ hs⟩
        · exact ih hs hm e

theorem sub_height (h : T.sub n = some U) : n.length + U.height ≤ T.height := by
  induction n generalizing U with
  | nil =>
      obtain rfl := Option.some.inj h
      simp
  | cons b n ih =>
      obtain ⟨l, r, hs, rfl⟩ := sub_cons.mp h
      have := ih hs
      rw [height] at this
      rw [List.length_cons]
      cases b
      · simp only [Bool.false_eq_true, if_false]
        omega
      · simp only [if_true]
        omega

theorem Merged.sub (hT : T.Merged) (h : T.sub n = some U) : U.Merged := by
  induction n generalizing U with
  | nil => exact Option.some.inj h ▸ hT
  | cons b n ih =>
      obtain ⟨l, r, hs, rfl⟩ := sub_cons.mp h
      have h1 := ih hs
      cases b
      · exact h1.2.1
      · exact h1.2.2

/-- A tree that is not free has an allocated node. -/
theorem Merged.exists_alloc (hU : U.Merged) (hne : U ≠ free) :
    ∃ q, U.sub q = some allocated := by
  induction U with
  | free => exact absurd rfl hne
  | allocated => exact ⟨[], rfl⟩
  | split l r ihl ihr =>
      by_cases hl : l = free
      · obtain ⟨q, hq⟩ := ihr hU.2.2 fun hr => hU.1 ⟨hl, hr⟩
        exact ⟨q ++ [true], (sub_append (n := [true]) (U := r) rfl q).trans hq⟩
      · obtain ⟨q, hq⟩ := ihl hU.2.1 hl
        exact ⟨q ++ [false], (sub_append (n := [false]) (U := l) rfl q).trans hq⟩

/-! ## 2. The antichain of a shape -/

theorem antichain (T : Shape) : Antichain T.allocs := by
  intro a ha c hc hac
  by_contra hne
  obtain ⟨l, r, hs⟩ := sub_above hc hac hne
  have := (ha : T.sub a = some allocated).symm.trans hs
  cases this

section Merged

variable (hT : T.Merged)
include hT

theorem split_iff : Split T.allocs n ↔ ∃ l r, T.sub n = some (split l r) := by
  constructor
  · rintro ⟨a, ha, hna, hne⟩
    exact sub_above ha hna hne
  · rintro ⟨l, r, hs⟩
    obtain ⟨q, hq⟩ := (hT.sub hs).exists_alloc (by simp)
    refine ⟨q ++ n, (sub_append hs q).trans hq, List.suffix_append q n, fun e => ?_⟩
    have h := (sub_append hs q).trans hq
    rw [← e, hs] at h
    cases h

theorem marked_iff : Marked T.allocs n ↔
    T.sub n = some allocated ∨ ∃ l r, T.sub n = some (split l r) := by
  rw [BlockTree.marked_iff, split_iff hT]
  rfl

theorem vacant_iff : Vacant T.allocs n ↔ T.sub n = some free := by
  have hkind : ∀ U : Shape, ¬ (some U = some allocated ∨ ∃ l r, some U = some (split l r)) ↔
      some U = some free := fun U => by cases U <;> simp
  cases n with
  | nil =>
      change ¬ Marked T.allocs [] ↔ _
      rw [marked_iff hT]
      exact hkind T
  | cons b p =>
      change ¬ Marked T.allocs (b :: p) ∧ Split T.allocs p ↔ _
      rw [marked_iff hT, split_iff hT]
      constructor
      · rintro ⟨h1, l, r, hs⟩
        have he : T.sub (b :: p) = some (if b then r else l) := sub_cons.mpr ⟨l, r, hs, rfl⟩
        rw [he] at h1 ⊢
        exact (hkind _).mp h1
      · intro h
        obtain ⟨l, r, hs, -⟩ := sub_cons.mp h
        rw [h]
        exact ⟨(hkind free).mpr rfl, l, r, hs⟩

end Merged

/-! ## 3. The shape of an antichain -/

open Classical in
/-- The tree below a node, at most `d` levels deep. -/
noncomputable def grow (A : Set Path) : Nat → Path → Shape
  | 0, n => if n ∈ A then allocated else free
  | d + 1, n =>
      if n ∈ A then allocated
      else if Split A n then split (grow A d (false :: n)) (grow A d (true :: n)) else free

variable {A : Set Path} {d : Nat}

theorem grow_mem (h : n ∈ A) : grow A d n = allocated := by
  cases d with
  | zero => rw [grow, if_pos h]
  | succ d => rw [grow, if_pos h]

theorem grow_split (hA : Antichain A) (h : Split A n) :
    grow A (d + 1) n = split (grow A d (false :: n)) (grow A d (true :: n)) := by
  rw [grow, if_neg fun hn => hA.not_split hn h, if_pos h]

theorem grow_height (A : Set Path) (d : Nat) (n : Path) : (grow A d n).height ≤ d := by
  induction d generalizing n with
  | zero =>
      rw [grow]
      split <;> exact Nat.le_refl 0
  | succ d ih =>
      rw [grow]
      split
      · exact Nat.zero_le _
      split
      · have h1 := ih (false :: n)
        have h2 := ih (true :: n)
        rw [height]
        omega
      · exact Nat.zero_le _

theorem grow_ne_free (hd : ∀ a ∈ A, a.length ≤ n.length + d) (h : Marked A n) :
    grow A d n ≠ free := by
  rcases BlockTree.marked_iff.mp h with hn | hs
  · rw [grow_mem hn]
    simp
  · cases d with
    | zero =>
        obtain ⟨a, ha, hna, hne⟩ := hs
        exact absurd (hna.eq_of_length_le (hd a ha)) hne
    | succ d =>
        rw [grow, if_pos hs]
        split
        · simp
        · simp

theorem grow_merged (hd : ∀ a ∈ A, a.length ≤ n.length + d) : (grow A d n).Merged := by
  induction d generalizing n with
  | zero =>
      rw [grow]
      split <;> trivial
  | succ d ih =>
      have hd' : ∀ b, ∀ a ∈ A, a.length ≤ (b :: n).length + d := fun b a ha => by
        have := hd a ha
        rw [List.length_cons]
        omega
      rw [grow]
      split
      · trivial
      split
      next hs =>
        refine ⟨fun hf => ?_, ih (hd' false), ih (hd' true)⟩
        obtain ⟨b, hb⟩ := split_iff_child.mp hs
        cases b
        · exact grow_ne_free (hd' false) hb hf.1
        · exact grow_ne_free (hd' true) hb hf.2
      · trivial

/-- Where the grown tree has a subtree, it is the one grown there. -/
theorem sub_grow (h : (grow A d []).sub n = some U) :
    n.length ≤ d ∧ U = grow A (d - n.length) n := by
  induction n generalizing U with
  | nil => exact ⟨Nat.zero_le _, (Option.some.inj h).symm⟩
  | cons b n ih =>
      obtain ⟨l, r, hs, rfl⟩ := sub_cons.mp h
      obtain ⟨h1, h2⟩ := ih hs
      cases hk : d - n.length with
      | zero =>
          rw [hk, grow] at h2
          split at h2 <;> cases h2
      | succ k =>
          rw [hk, grow] at h2
          split at h2
          · cases h2
          split at h2
          · obtain ⟨rfl, rfl⟩ := Shape.split.inj h2
            have hlen : (b :: n).length ≤ d := by
              rw [List.length_cons]
              omega
            rw [show d - (b :: n).length = k by rw [List.length_cons]; omega]
            exact ⟨hlen, by cases b <;> rfl⟩
          · cases h2

/-- The grown tree reaches every node whose parent is split. -/
theorem sub_grow_of_split (hA : Antichain A) (hab : ∀ m, m <:+ n → m ≠ n → Split A m)
    (hlen : n.length ≤ d) : (grow A d []).sub n = some (grow A (d - n.length) n) := by
  induction n with
  | nil => rfl
  | cons b n ih =>
      rw [List.length_cons] at hlen
      have hs : Split A n := hab n (List.suffix_cons b n) fun e => by
        have := congrArg List.length e
        simp at this
      have h1 := ih (fun m hm hne => hab m (hm.trans (List.suffix_cons b n)) fun e => by
        have := hm.length_le
        rw [e, List.length_cons] at this
        omega) (by omega)
      rw [show d - n.length = (d - (b :: n).length) + 1 by rw [List.length_cons]; omega,
        grow_split hA hs] at h1
      refine sub_cons.mpr ⟨_, _, h1, ?_⟩
      cases b <;> rfl

/-- **Every antichain has a shape.** -/
theorem exists_shape (hA : Antichain A) (hd : ∀ a ∈ A, a.length ≤ d) :
    ∃ T : Shape, T.Merged ∧ T.height ≤ d ∧ T.allocs = A := by
  refine ⟨grow A d [], grow_merged (by simpa using hd), grow_height A d [], ?_⟩
  ext n
  constructor
  · intro h
    obtain ⟨-, h2⟩ := sub_grow h
    by_contra hn
    cases hk : d - n.length with
    | zero =>
        rw [hk, grow, if_neg hn] at h2
        cases h2
    | succ k =>
        rw [hk, grow, if_neg hn] at h2
        split at h2 <;> cases h2
  · intro hn
    refine (sub_grow_of_split hA (fun m hm hne => ⟨n, hn, hm, hne⟩) (hd n hn)).trans ?_
    rw [grow_mem hn]

end Shape

end Rtx.BlockTree
