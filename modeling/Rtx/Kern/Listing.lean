/-
  File:      Rtx/Kern/Listing.lean
  Subject:   What the listing calls store for their caller.

  `Listing p count`: the result is the number of entries stored, at most `count` of them, and they
  are the smallest ids that `p` holds of. The loop tests the count behind the write, so `k_tsk_ls`
  and `k_mbx_ls` list so many exactly when the count is not 0 or the first slot is not listed
  (`listing_counted`); `k_tsk_ls` with the count 0 fills the buffer with every task there is
  (`listing_overruns`).
-/
import Rtx.Kern.Scheduling

namespace Rtx

open Lib

variable {p : Tid → Bool} {count : Nat} {is stored : List Tid}

/-! ## 1. The loop -/

/-- The loop stores the ids it comes by until the count is reached. -/
theorem lsLoop_eq (h : stored.length < count) : Kernel.lsLoop p count is stored =
    (stored ++ (is.filter p).take (count - stored.length),
      min count (stored.length + (is.filter p).length)) := by
  induction is generalizing stored with
  | nil =>
      have hmin : min count stored.length = stored.length := Nat.min_eq_right (Nat.le_of_lt h)
      simp [Kernel.lsLoop, hmin]
  | cons i is ih =>
      unfold Kernel.lsLoop
      by_cases hp : p i = true
      · have hlen : (stored ++ [i]).length = stored.length + 1 := List.length_append
        simp only [if_pos hp, List.filter_cons_of_pos hp, hlen]
        split
        next hc =>
          have h1 : count - stored.length = 1 := by omega
          rw [h1, List.take_succ_cons, List.take_zero, List.length_cons]
          exact congrArg _ (by omega)
        next hc =>
          have h1 : count - stored.length = count - (stored.length + 1) + 1 := by omega
          rw [ih (by omega), hlen, h1, List.take_succ_cons, List.append_assoc, List.length_cons]
          exact congrArg _ (by omega)
      · simp only [if_neg hp, List.filter_cons_of_neg hp, if_neg (Nat.ne_of_lt h)]
        exact ih h

/-- With the count 0 it stores all of them, unless the first slot is not listed. -/
theorem lsLoop_zero {i : Tid} : Kernel.lsLoop p 0 (i :: is) [] =
    if p i then ((i :: is).filter p, ((i :: is).filter p).length) else ([], 0) := by
  have hpast : ∀ (is stored : List Tid), stored ≠ [] →
      Kernel.lsLoop p 0 is stored = (stored ++ is.filter p, (stored ++ is.filter p).length) := by
    intro is
    induction is with
    | nil =>
        intro stored _
        simp [Kernel.lsLoop]
    | cons i is ih =>
        intro stored h
        unfold Kernel.lsLoop
        have hne : (if p i then stored ++ [i] else stored) ≠ [] := by
          split
          · simp
          · exact h
        rw [if_neg (fun h0 => hne (List.length_eq_zero_iff.mp h0)), ih _ hne]
        split
        next hp => rw [List.filter_cons_of_pos hp, List.append_assoc, List.singleton_append]
        next hp => rw [List.filter_cons_of_neg hp]
  unfold Kernel.lsLoop
  split
  next hp =>
    rw [List.filter_cons_of_pos hp]
    exact hpast is [i] (by simp)
  next => rfl

/-! ## 2. The listing calls -/

/-- **A listing of the ids that `p` holds of**: no more than `count`, and the smallest of them. -/
structure Listing (p : Tid → Bool) (count : Nat) (r : Int) (ids : List Tid) : Prop where
  result : r = (min count (Finset.univ.filter fun t => p t = true).card : Nat)
  stored : ids.length = min count (Finset.univ.filter fun t => p t = true).card
  increasing : ids.Pairwise (· < ·)
  listed : ∀ t ∈ ids, p t = true
  smallest : ∀ t, p t = true → t ∉ ids → ∀ u ∈ ids, u < t

theorem card_listed (p : Tid → Bool) : (Finset.univ.filter fun t => p t = true).card =
    ((List.finRange 16).filter p).length := by
  have hnodup : ((List.finRange 16).filter p).Nodup := (List.nodup_finRange 16).filter _
  rw [← List.toFinset_card_of_nodup hnodup]
  congr 1
  ext t
  simp

/-- The first of the ids in their order are a listing. -/
theorem listing_take (p : Tid → Bool) (count : Nat) : Listing p count
    (min count ((List.finRange 16).filter p).length : Nat)
    (((List.finRange 16).filter p).take count) := by
  have hsorted : ((List.finRange 16).filter p).Pairwise (· < ·) :=
    (List.pairwise_lt_finRange 16).filter _
  constructor
  · rw [card_listed]
  · rw [card_listed, List.length_take]
  · exact hsorted.sublist (List.take_sublist _ _)
  · intro t ht
    exact (List.mem_filter.mp (List.mem_of_mem_take ht)).2
  · intro t hp hnot u hu
    have ht : t ∈ (List.finRange 16).filter p := List.mem_filter.mpr ⟨List.mem_finRange t, hp⟩
    rw [← List.take_append_drop count ((List.finRange 16).filter p)] at ht hsorted
    exact (List.pairwise_append.mp hsorted).2.2 u hu t ((List.mem_append.mp ht).resolve_left hnot)

/-- What either call lists for the caller, exactly when it does so. -/
theorem listing_iff (p : Tid → Bool) (count : Nat) :
    Listing p count (Kernel.lsLoop p count (List.finRange 16) []).2
      (Kernel.lsLoop p count (List.finRange 16) []).1 ↔ count ≠ 0 ∨ p 0 = false := by
  by_cases hc : count = 0
  · subst hc
    have hcons : List.finRange 16 = 0 :: (List.finRange 16).tail := rfl
    rw [hcons, lsLoop_zero]
    constructor
    · intro h
      refine Or.inr (Bool.eq_false_iff.mpr fun hp => ?_)
      rw [if_pos hp] at h
      have h0 : ((0 :: (List.finRange 16).tail).filter p).length = 0 :=
        h.stored.trans (Nat.zero_min _)
      rw [List.filter_cons_of_pos hp] at h0
      cases h0
    · intro h
      have hp : p 0 = false := h.resolve_left (fun h0 => h0 rfl)
      rw [hp, if_neg Bool.false_ne_true]
      have := listing_take p 0
      rwa [Nat.zero_min, List.take_zero] at this
  · rw [lsLoop_eq (Nat.pos_of_ne_zero hc)]
    simp only [List.nil_append, List.length_nil, Nat.sub_zero, Nat.zero_add]
    exact ⟨fun _ => Or.inl hc, fun _ => listing_take p count⟩

namespace Kernel

/-- The tasks that `k_tsk_ls` lists. -/
def isTask (k : Kernel) (t : Tid) : Bool := (k.tcb t).state ≠ .dormant

/-- The tasks that `k_mbx_ls` lists. -/
def hasMailbox (k : Kernel) (t : Tid) : Bool :=
  (k.tcb t).state ≠ .dormant && (k.mailbox (.task t)).active

end Kernel

/-- **The listing calls respect the count** if and only if it is not 0, or the first slot is not
    one they list. -/
theorem listing_counted (k : Kernel) (count : Nat) :
    (Listing k.isTask count (k.kTskLs true count).2.1 (k.kTskLs true count).2.2 ↔
      count ≠ 0 ∨ (k.tcb tidNull).state = .dormant) ∧
    (Listing k.hasMailbox count (k.kMbxLs true count).2.1 (k.kMbxLs true count).2.2 ↔
      count ≠ 0 ∨ (k.tcb tidNull).state = .dormant ∨
        (k.mailbox (.task tidNull)).active = false) := by
  have h1 : k.isTask 0 = false ↔ (k.tcb tidNull).state = .dormant := by
    simp [Kernel.isTask, tidNull]
  have h2 : k.hasMailbox 0 = false ↔
      (k.tcb tidNull).state = .dormant ∨ (k.mailbox (.task tidNull)).active = false := by
    simp [Kernel.hasMailbox, tidNull, Decidable.or_iff_not_imp_left]
  rw [← h2, ← h1]
  exact ⟨listing_iff k.isTask count, listing_iff k.hasMailbox count⟩

/-- After the boot `k_tsk_ls` with the count 0 stores the ids of all tasks. -/
theorem listing_overruns : ¬ ∀ (k k' : Kernel) (es : List Event) (count : Nat), Booted k →
    Allowed Kernel.step Kernel.Legal k es → run Kernel.step k es = some k' →
    Listing k'.isTask count (k'.kTskLs true count).2.1 (k'.kTskLs true count).2.2 ∧
      Listing k'.hasMailbox count (k'.kMbxLs true count).2.1 (k'.kMbxLs true count).2.2 := by
  intro h
  have hs := (h _ _ [] 0 booted_threeTasks trivial rfl).1.stored
  rw [Nat.zero_min] at hs
  exact absurd hs (by decide +kernel)

end Rtx
