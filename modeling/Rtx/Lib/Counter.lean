/-
  File:      Rtx/Lib/Counter.lean
  Subject:   Two counters modulo `M` that are advanced by the same amount.

  Their difference modulo `M` is not changed by it. Their order is, exactly when one of them passes
  the modulus and the other does not.
-/
import Mathlib.Algebra.Order.Group.Nat

namespace Rtx.Lib

variable {M a b c : Nat}

/-- The counter `a` passes the modulus when it is advanced by `c`. -/
def Wraps (M c a : Nat) : Prop := M ≤ a + c

instance Wraps.decidable (M c a : Nat) : Decidable (Wraps M c a) :=
  inferInstanceAs (Decidable (_ ≤ _))

theorem advance_eq (ha : a < M) (hc : c < M) :
    (a + c) % M = if Wraps M c a then a + c - M else a + c := by
  by_cases h : Wraps M c a
  · rw [if_pos h, Nat.mod_eq_sub_mod h]
    exact Nat.mod_eq_of_lt (by omega)
  · rw [if_neg h]
    exact Nat.mod_eq_of_lt (not_le.mp h)

theorem distance_eq (ha : a < M) (hb : b < M) :
    (b + (M - a)) % M = if a ≤ b then b - a else b + M - a := by
  split
  next h =>
    rw [show b + (M - a) = b - a + M by omega, Nat.add_mod_right]
    exact Nat.mod_eq_of_lt (by omega)
  next h =>
    rw [show b + (M - a) = b + M - a by omega]
    exact Nat.mod_eq_of_lt (by omega)

/-- **The order is kept exactly when both pass the modulus or neither does.** -/
theorem advance_lt_iff (ha : a < M) (hb : b < M) (hc : c < M) :
    ((a + c) % M < (b + c) % M ↔ a < b) ↔ (Wraps M c a ↔ Wraps M c b) := by
  rw [advance_eq ha hc, advance_eq hb hc]
  by_cases h1 : Wraps M c a <;> by_cases h2 : Wraps M c b <;>
    simp only [h1, h2, if_true, if_false, iff_true, iff_false, not_true_eq_false] <;>
    unfold Wraps at h1 h2 <;> omega

theorem advance_le_iff (ha : a < M) (hb : b < M) (hc : c < M) :
    ((a + c) % M ≤ (b + c) % M ↔ a ≤ b) ↔ (Wraps M c a ↔ Wraps M c b) := by
  rw [← not_lt, ← not_lt, not_iff_not, advance_lt_iff hb ha hc]
  exact Iff.comm

/-- **The distance is always kept.** -/
theorem advance_distance (ha : a < M) (hb : b < M) (hc : c < M) :
    ((b + c) % M + (M - (a + c) % M)) % M = (b + (M - a)) % M := by
  have hM : 0 < M := Nat.lt_of_le_of_lt (Nat.zero_le a) ha
  rw [distance_eq (Nat.mod_lt _ hM) (Nat.mod_lt _ hM), distance_eq ha hb, advance_eq ha hc,
    advance_eq hb hc]
  by_cases h1 : Wraps M c a <;> by_cases h2 : Wraps M c b <;>
    simp only [h1, h2, if_true, if_false] <;> unfold Wraps at h1 h2 <;>
    split <;> split <;> omega

/-- Advancing twice, in either order. -/
theorem advance_comm (d : Nat) : ((a + c) % M + d) % M = ((a + d) % M + c) % M := by
  rw [Nat.mod_add_mod, Nat.mod_add_mod, Nat.add_right_comm]

end Rtx.Lib
